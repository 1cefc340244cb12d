import ConsoleCalculator.Server.Connections

/-!
# Whose request is whose

The connections of the service (`ConnectedService`) over the atomic service: which request of the
service belongs to which line of which connection, while the threads run completions of all of them.

Results:
* `Served.read`, `Served.respond`: `on_read` attaches a line to a request, and its response to the
  connection.
* **`connected`**: so each step of the service is at most one step of the atomic service, with every
  request attached to one connection.
* **`clients_answered`**: every client gets the answers to its own lines, in order.
-/

namespace ConsoleCalculator

open Base RequestHandler ServiceApplication

namespace ConnectedService

/-! ## With the atomic service -/

/-- The step of the atomic service that a step is. -/
def label (maxMessageSize : ℕ) (s : ConnectedService) (e : ConnectionEvent) : Option AtomicEvent :=
  (s.applicationEvent maxMessageSize e).bind (ServiceApplication.label s.service)

/-- What holds of one connection: it is sound, the request it waits for is the one its thread has,
and what it was answered are the answers to its requests. -/
structure Attends (maxMessageSize : ℕ) (w : AtomicService) (conn : Connection) : Prop where
  tracks : conn.Tracks maxMessageSize
  reading : ∀ r, conn.reader = some r → w.number r.thread = some r.number ∧
    ∃ call, w.taken[r.number]? = some call ∧ call.json = textOf r.request
  answered : ∀ (j k : ℕ) (text : String), conn.answered[j]? = some (k, text) →
    (k, .value text) ∈ w.answered ∧
      ∃ call request, w.taken[k]? = some call ∧ conn.session.requests[j]? = some request ∧
        call.json = textOf request

/-- Every request of the atomic service belongs to one connection, and a thread that has one is in
`on_read` of that connection. -/
structure Served (maxMessageSize : ℕ) (s : ConnectedService) (w : AtomicService) : Prop where
  each : ∀ conn ∈ s.connections, Attends maxMessageSize w conn
  attended : ∀ i k, w.number i = some k → ∃ (c : ℕ) (conn : Connection) (r : Reader),
    s.connections[c]? = some conn ∧ conn.reader = some r ∧ r.thread = i
  alone : ∀ (c c' : ℕ) (conn conn' : Connection) (r r' : Reader),
    s.connections[c]? = some conn → s.connections[c']? = some conn' →
      conn.reader = some r → conn'.reader = some r' → r.thread = r'.thread → c = c'
  picked : s.picked = w.taken.length
  numbered : (s.connections.flatMap Connection.numbers).Perm (List.range s.picked)

section Served

variable {maxMessageSize : ℕ} {s : ConnectedService} {w w' : AtomicService} {c i : ℕ}
  {conn conn' : Connection}

theorem served_launch (history : OperationHistory) :
    Served maxMessageSize (launch history) (Workers.start (.fresh history)) where
  each conn h := absurd h List.not_mem_nil
  attended i k h := by simp [Workers.number, Workers.start] at h
  alone c c' conn conn' r r' h := by simp [launch] at h
  picked := rfl
  numbered := List.Perm.refl _

/-- Only the numbers, the requests and the answers of the atomic service matter. -/
theorem Attends.mono (h : Attends maxMessageSize w conn)
    (hnumber : ∀ r, conn.reader = some r → w'.number r.thread = w.number r.thread)
    (htaken : ∃ more, w'.taken = w.taken ++ more)
    (hanswered : ∃ more, w'.answered = w.answered ++ more) : Attends maxMessageSize w' conn := by
  obtain ⟨more, htaken⟩ := htaken
  obtain ⟨more', hanswered⟩ := hanswered
  have hkeep : ∀ {k : ℕ} {call : HandleCall}, w.taken[k]? = some call →
      w'.taken[k]? = some call :=
    fun hk => htaken ▸ Workers.getElem?_append_of_some hk more
  refine ⟨h.tracks, fun r hr => ?_, fun j k text hj => ?_⟩
  · obtain ⟨hn, call, hcall, hjson⟩ := h.reading r hr
    exact ⟨(hnumber r hr).trans hn, call, hkeep hcall, hjson⟩
  · obtain ⟨hmem, call, request, hcall, hrest⟩ := h.answered j k text hj
    exact ⟨hanswered ▸ List.mem_append_left _ hmem, call, request, hkeep hcall, hrest⟩

/-- A step that does not show, or shows as a silent one. -/
theorem Served.silent (h : Served maxMessageSize s w) (service : ServiceApplication)
    (hnumber : ∀ i, w'.number i = w.number i) (htaken : w'.taken = w.taken)
    (hanswered : w'.answered = w.answered) :
    Served maxMessageSize { s with service := service } w' where
  each conn hc := (h.each conn hc).mono (fun r _ => hnumber r.thread)
    ⟨[], by rw [htaken, List.append_nil]⟩ ⟨[], by rw [hanswered, List.append_nil]⟩
  attended i k hk := h.attended i k (hnumber i ▸ hk)
  alone := h.alone
  picked := htaken ▸ h.picked
  numbered := h.numbered

/-- A connection that is not in `on_read` goes on to another sound state. -/
theorem Attends.idle (h : Attends maxMessageSize w conn) (hidle : conn'.reader = none)
    (hanswered : conn'.answered = conn.answered)
    (hrequests : conn'.session.requests = conn.session.requests)
    (hsound : conn'.Sound maxMessageSize) : Attends maxMessageSize w conn' := by
  refine ⟨?_, fun r hr => ?_, ?_⟩
  · unfold Connection.Tracks
    rw [hidle]
    exact hsound
  · rw [hidle] at hr
    cases hr
  · rw [hrequests, hanswered]
    exact h.answered

theorem put_self (hc : s.connections[c]? = some conn) :
    (s.put c conn').connections[c]? = some conn' := by
  have hlt : c < s.connections.length := (List.getElem?_eq_some_iff.mp hc).1
  simp [ConnectedService.put, hlt]

theorem put_other {c₀ : ℕ} (hne : c₀ ≠ c) :
    (s.put c conn').connections[c₀]? = s.connections[c₀]? :=
  List.getElem?_set_ne (Ne.symm hne)

theorem put_cases {c₀ : ℕ} {conn₀ : Connection}
    (h₀ : (s.put c conn').connections[c₀]? = some conn₀) :
    (c₀ = c ∧ conn₀ = conn') ∨ (c₀ ≠ c ∧ s.connections[c₀]? = some conn₀) := by
  by_cases heq : c₀ = c
  · subst heq
    have hmem : conn₀ = conn' := by
      rw [ConnectedService.put, List.getElem?_set_self'] at h₀
      obtain ⟨_, -, rfl⟩ := Option.map_eq_some_iff.mp h₀
      rfl
    exact Or.inl ⟨rfl, hmem⟩
  · rw [put_other heq] at h₀
    exact Or.inr ⟨heq, h₀⟩

/-- A thread that is in `on_read` of a connection has a request. -/
theorem Served.busy (h : Served maxMessageSize s w) (hc : s.connections[c]? = some conn)
    {r : Reader} (hr : conn.reader = some r) : w.number r.thread = some r.number :=
  ((h.each conn (List.mem_of_getElem? hc)).reading r hr).1

/-- A connection that is not in `on_read` moves on. -/
theorem Served.put (h : Served maxMessageSize s w) (hc : s.connections[c]? = some conn)
    (hidle : conn.reader = none) (hidle' : conn'.reader = none)
    (hanswered : conn'.answered = conn.answered) (hattends : Attends maxMessageSize w conn') :
    Served maxMessageSize (s.put c conn') w := by
  -- a connection in `on_read` is another one
  have hother : ∀ {c₀ : ℕ} {conn₀ : Connection} {r : Reader}, conn₀.reader = some r →
      (s.put c conn').connections[c₀]? = some conn₀ → s.connections[c₀]? = some conn₀ := by
    intro c₀ conn₀ r hr h₀
    rcases put_cases h₀ with ⟨-, rfl⟩ | ⟨-, h₀⟩
    · rw [hidle'] at hr
      cases hr
    · exact h₀
  refine ⟨fun conn₀ h₀ => ?_, fun i k hk => ?_, ?_, h.picked, ?_⟩
  · rcases List.mem_or_eq_of_mem_set h₀ with h₀ | rfl
    · exact h.each conn₀ h₀
    · exact hattends
  · obtain ⟨c₀, conn₀, r, h₀, hr, hi⟩ := h.attended i k hk
    have hne : c₀ ≠ c := by
      rintro rfl
      obtain rfl := Option.some.inj (hc.symm.trans h₀)
      rw [hidle] at hr
      cases hr
    exact ⟨c₀, conn₀, r, (put_other hne).trans h₀, hr, hi⟩
  · intro c₁ c₂ conn₁ conn₂ r₁ r₂ h₁ h₂ hr₁ hr₂
    exact h.alone c₁ c₂ conn₁ conn₂ r₁ r₂ (hother hr₁ h₁) (hother hr₂ h₂) hr₁ hr₂
  · have hsame : conn'.numbers = conn.numbers := by
      simp only [Connection.numbers, hanswered, hidle, hidle']
    have hperm := Workers.flatMap_set_perm Connection.numbers conn' hc
    rw [hsame] at hperm
    exact ((List.perm_append_left_iff _).mp hperm).trans h.numbered

/-- A session is created. -/
theorem Served.accept (h : Served maxMessageSize s w) (segments : List Bytes) :
    Served maxMessageSize { s with connections := s.connections ++ [.start segments] } w := by
  have hold : ∀ {c₀ : ℕ} {conn₀ : Connection} {r : Reader}, conn₀.reader = some r →
      (s.connections ++ [.start segments])[c₀]? = some conn₀ →
      s.connections[c₀]? = some conn₀ := by
    intro c₀ conn₀ r hr h₀
    rw [List.getElem?_append] at h₀
    split at h₀
    · exact h₀
    · obtain rfl := List.mem_singleton.mp (List.mem_of_getElem? h₀)
      cases hr
  refine ⟨fun conn₀ h₀ => ?_, fun i k hk => ?_, ?_, h.picked, ?_⟩
  · rcases List.mem_append.mp h₀ with h₀ | h₀
    · exact h.each conn₀ h₀
    · obtain rfl := List.mem_singleton.mp h₀
      refine ⟨Connection.sound_start segments, fun r hr => ?_, fun j k text hj => ?_⟩
      · cases hr
      · simp [Connection.start] at hj
  · obtain ⟨c₀, conn₀, r, h₀, hr, hi⟩ := h.attended i k hk
    exact ⟨c₀, conn₀, r, Workers.getElem?_append_of_some h₀ _, hr, hi⟩
  · intro c₁ c₂ conn₁ conn₂ r₁ r₂ h₁ h₂ hr₁ hr₂
    exact h.alone c₁ c₂ conn₁ conn₂ r₁ r₂ (hold hr₁ h₁) (hold hr₂ h₂) hr₁ hr₂
  · simpa [Connection.numbers, Connection.start] using h.numbered

variable {M : CalculatorMath} {lib : Protocol}

/-- A request is taken out of the buffer, and picked up by the thread. -/
theorem Served.read (h : Served maxMessageSize s w) (hc : s.connections[c]? = some conn)
    (hidle : conn.reader = none)
    (htracks : (conn.beginRead i s.picked).Tracks maxMessageSize) {call : HandleCall}
    (hjson : call.json =
      textOf (Session.withoutCarriageReturn (Session.getline conn.session.buffer).1))
    (hstep : AtomicService.step M lib w (.take i call) = some w')
    (service : ServiceApplication) :
    Served maxMessageSize
      { s.put c (conn.beginRead i s.picked) with service := service, picked := s.picked + 1 }
      w' := by
  obtain ⟨hnone, hnumber, htaken, hanswered⟩ := Workers.number_take hstep
  -- the thread was free, so no connection had it
  have hfree : ∀ {c₀ : ℕ} {conn₀ : Connection} {r : Reader}, s.connections[c₀]? = some conn₀ →
      conn₀.reader = some r → i ≠ r.thread := by
    rintro c₀ conn₀ r h₀ hr rfl
    have hbusy := h.busy h₀ hr
    rw [hnone] at hbusy
    cases hbusy
  have hgrown : ∀ {conn₀ : Connection}, Attends maxMessageSize w conn₀ →
      (∀ r, conn₀.reader = some r → i ≠ r.thread) → Attends maxMessageSize w' conn₀ := by
    intro conn₀ h₀ hr
    refine h₀.mono (fun r hr₀ => ?_) ⟨_, htaken⟩ ⟨[], by rw [hanswered, List.append_nil]⟩
    rw [hnumber, if_neg (hr r hr₀)]
  have hold := hgrown (h.each conn (List.mem_of_getElem? hc)) fun r hr => hfree hc hr
  refine ⟨fun conn₀ h₀ => ?_, fun j k hk => ?_, ?_, ?_, ?_⟩
  · obtain ⟨c₀, h₀⟩ := List.getElem?_of_mem h₀
    rcases put_cases h₀ with ⟨-, rfl⟩ | ⟨-, h₀⟩
    · refine ⟨htracks, fun r hr => ?_, hold.answered⟩
      obtain rfl := Option.some.inj hr
      refine ⟨by rw [hnumber, if_pos rfl, h.picked], call, ?_, hjson⟩
      rw [htaken, h.picked]
      simp
    · exact hgrown (h.each conn₀ (List.mem_of_getElem? h₀)) fun r hr => hfree h₀ hr
  · by_cases hij : i = j
    · exact ⟨c, _, _, put_self hc, rfl, hij⟩
    · rw [hnumber, if_neg hij] at hk
      obtain ⟨c₀, conn₀, r, h₀, hr, hj⟩ := h.attended j k hk
      have hne : c₀ ≠ c := by
        rintro rfl
        obtain rfl := Option.some.inj (hc.symm.trans h₀)
        rw [hidle] at hr
        cases hr
      exact ⟨c₀, conn₀, r, (put_other hne).trans h₀, hr, hj⟩
  · intro c₁ c₂ conn₁ conn₂ r₁ r₂ h₁ h₂ hr₁ hr₂ hthread
    rcases put_cases h₁ with ⟨rfl, rfl⟩ | ⟨-, hold₁⟩
    · obtain rfl := Option.some.inj hr₁
      rcases put_cases h₂ with ⟨rfl, -⟩ | ⟨-, hold₂⟩
      · rfl
      · exact absurd hthread (hfree hold₂ hr₂)
    · rcases put_cases h₂ with ⟨-, rfl⟩ | ⟨-, hold₂⟩
      · obtain rfl := Option.some.inj hr₂
        exact absurd hthread.symm (hfree hold₁ hr₁)
      · exact h.alone c₁ c₂ conn₁ conn₂ r₁ r₂ hold₁ hold₂ hr₁ hr₂ hthread
  · rw [htaken, List.length_append, ← h.picked]
    rfl
  · have hnumbers : (conn.beginRead i s.picked).numbers = conn.numbers ++ [s.picked] := by
      simp [Connection.numbers, Connection.beginRead, hidle]
    have hperm := Workers.flatMap_set_perm Connection.numbers (conn.beginRead i s.picked) hc
    rw [hnumbers, List.append_assoc] at hperm
    have hadd := (List.perm_append_left_iff _).mp hperm
    rw [List.range_succ]
    exact (hadd.trans (h.numbered.cons s.picked)).trans (List.perm_append_singleton _ _).symm

/-- The connection whose handler returns has one more answer, to the request it was reading. -/
theorem Attends.endRead (h : Attends maxMessageSize w conn) {r : Reader}
    (hr : conn.reader = some r) {text : String} (htaken : w'.taken = w.taken)
    (hanswered : w'.answered = w.answered ++ [(r.number, .value text)]) :
    Attends maxMessageSize w' (conn.endRead r text) := by
  have htracks := (h.tracks.reading hr).2 text
  have hlength : conn.session.requests.length = conn.answered.length := by
    simpa [Connection.endRead] using htracks.length
  refine ⟨htracks, fun r₀ hr₀ => ?_, fun j k text' hj => ?_⟩
  · cases hr₀
  have hj : (conn.answered ++ [(r.number, text)])[j]? = some (k, text') := hj
  show _ ∧ ∃ call request, _ ∧ (conn.session.requests ++ [r.request])[j]? = some request ∧ _
  rw [hanswered, htaken]
  by_cases hlast : j < conn.answered.length
  · rw [List.getElem?_append_left hlast] at hj
    rw [List.getElem?_append_left (hlength ▸ hlast)]
    obtain ⟨hmem, hrest⟩ := h.answered j k text' hj
    exact ⟨List.mem_append_left _ hmem, hrest⟩
  · have hlt := (List.getElem?_eq_some_iff.mp hj).1
    rw [List.length_append, List.length_singleton] at hlt
    obtain rfl : j = conn.answered.length := by omega
    rw [List.getElem?_concat_length] at hj
    obtain ⟨rfl, rfl⟩ := Prod.mk.inj (Option.some.inj hj)
    obtain ⟨-, call, hcall, hjson⟩ := h.reading r hr
    refine ⟨by simp, call, r.request, hcall, ?_, hjson⟩
    rw [← hlength, List.getElem?_concat_length]

/-- The handler returns, and the thread is free again. -/
theorem Served.respond (h : Served maxMessageSize s w) (hc : s.connections[c]? = some conn)
    {r : Reader} (hr : conn.reader = some r) {text : String}
    (hdone : ∃ k, w.workers[r.thread]? = some (some (k, .done (.value text))))
    (hstep : AtomicService.step M lib w (.finish r.thread) = some w')
    (service : ServiceApplication) :
    Served maxMessageSize { s.put c (conn.endRead r text) with service := service } w' := by
  obtain ⟨k, a, hi, hnumber, htaken, hanswered⟩ := Workers.number_finish hstep
  obtain ⟨k', hk'⟩ := hdone
  obtain ⟨rfl, ha⟩ := Prod.mk.inj (Option.some.inj (Option.some.inj (hi.symm.trans hk')))
  obtain rfl : a = .value text := Prog.done.inj ha
  have hbusy := h.busy hc hr
  obtain rfl : k = r.number :=
    Option.some.inj ((Workers.number_eq_some.mpr ⟨_, hi⟩).symm.trans hbusy)
  -- the other connections have other threads
  have hgrown : ∀ {c₀ : ℕ} {conn₀ : Connection}, c₀ ≠ c → s.connections[c₀]? = some conn₀ →
      Attends maxMessageSize w' conn₀ := by
    intro c₀ conn₀ hne h₀
    refine (h.each conn₀ (List.mem_of_getElem? h₀)).mono (fun r₀ hr₀ => ?_)
      ⟨[], by rw [htaken, List.append_nil]⟩ ⟨_, hanswered⟩
    rw [hnumber, if_neg fun heq => hne (h.alone c₀ c conn₀ conn r₀ r h₀ hc hr₀ hr heq.symm)]
  refine ⟨fun conn₀ h₀ => ?_, fun j k hk => ?_, ?_, ?_, ?_⟩
  · obtain ⟨c₀, h₀⟩ := List.getElem?_of_mem h₀
    rcases put_cases h₀ with ⟨-, rfl⟩ | ⟨hne, h₀⟩
    · exact (h.each conn (List.mem_of_getElem? hc)).endRead hr htaken hanswered
    · exact hgrown hne h₀
  · by_cases hij : r.thread = j
    · rw [hnumber, if_pos hij] at hk
      cases hk
    · rw [hnumber, if_neg hij] at hk
      obtain ⟨c₀, conn₀, r₀, h₀, hr₀, hj⟩ := h.attended j k hk
      have hne : c₀ ≠ c := by
        rintro rfl
        obtain rfl := Option.some.inj (hc.symm.trans h₀)
        obtain rfl := Option.some.inj (hr.symm.trans hr₀)
        exact hij hj
      exact ⟨c₀, conn₀, r₀, (put_other hne).trans h₀, hr₀, hj⟩
  · intro c₁ c₂ conn₁ conn₂ r₁ r₂ h₁ h₂ hr₁ hr₂ hthread
    rcases put_cases h₁ with ⟨-, rfl⟩ | ⟨-, h₁⟩
    · cases hr₁
    · rcases put_cases h₂ with ⟨-, rfl⟩ | ⟨-, h₂⟩
      · cases hr₂
      · exact h.alone c₁ c₂ conn₁ conn₂ r₁ r₂ h₁ h₂ hr₁ hr₂ hthread
  · exact htaken ▸ h.picked
  · have hsame : (conn.endRead r text).numbers = conn.numbers := by
      simp [Connection.numbers, Connection.endRead, hr]
    have hperm := Workers.flatMap_set_perm Connection.numbers (conn.endRead r text) hc
    rw [hsame] at hperm
    exact ((List.perm_append_left_iff _).mp hperm).trans h.numbered

end Served

section Connected

variable {M : CalculatorMath} {lib : Protocol} {workerThreads : Int32} {maxMessageSize : ℕ}
  {s s' : ConnectedService} {w : AtomicService}

/-- Outside the sessions no request is picked up or answered. -/
theorem silent_label {u : ServiceApplication} {e : ApplicationEvent} (he : inSession e = false)
    {a : AtomicEvent} (ha : ServiceApplication.label u e = some a) : a.Silent := by
  cases e with
  | worker e =>
    cases e with
    | initDone =>
      simp only [ServiceApplication.label] at ha
      split at ha
      · split at ha
        · obtain rfl := Option.some.inj ha
          trivial
        · cases ha
      · cases ha
    | runJob reply =>
      simp only [ServiceApplication.label] at ha
      split at ha
      · obtain rfl := Option.some.inj ha
        trivial
      · cases ha
    | submit | notifyOne | getFuture | startClear | startThread | startReturn | check
    | spuriousWake | stopFlag | stopNotify | stopJoin => cases ha
  | createThread =>
    obtain rfl := Option.some.inj ha
    trivial
  | network i e =>
    cases e with
    | request | respond => cases he
    | submit | notify | receive | abort | exit => cases ha
  | startSignals | signalCaught | signalNotify | serverStarted | serverFails | wake | ioStop | join
  | joined | signalStop | signalJoin => cases ha

/-- **Each step of the service is at most one step of the atomic service**, and the connections stay
attached to its requests. -/
theorem connected : Simulation (step M lib workerThreads maxMessageSize)
    (AtomicService.step M lib) (label maxMessageSize)
    fun s w => (Orderly s.service ∧ Matches s.service w) ∧ Served maxMessageSize s w := by
  refine Simulation.of_step fun {s w e s'} ⟨hR, h⟩ hstep => ?_
  cases step_cases hstep with
  | moved e service he hservice =>
    cases hlabel : ServiceApplication.label s.service e with
    | none =>
      exact Or.inl ⟨hlabel, ServiceApplication.simulation.idle hR hservice hlabel,
        h.silent service (fun _ => rfl) rfl rfl⟩
    | some a =>
      obtain ⟨w', hw', hR'⟩ := ServiceApplication.simulation.move hR hservice hlabel
      obtain ⟨hnumber, htaken, hanswered⟩ := Workers.number_silent (silent_label he hlabel) hw'
      exact Or.inr ⟨a, w', hlabel, hw', hR', h.silent service hnumber htaken hanswered⟩
  | accepted i segments hfree => exact Or.inl ⟨rfl, hR, h.accept segments⟩
  | completed i c e conn session hconn he hsession =>
    obtain ⟨hc, -, hidle, -⟩ := outstanding_eq_some.mp hconn
    have hattends := h.each conn (List.mem_of_getElem? hc)
    have hrequests : session.requests = conn.session.requests := by
      cases Session.step_cases hsession with
      | tooLong | handled => exact absurd rfl he
      | received | eof | wrote => rfl
    exact Or.inl ⟨rfl, hR, h.put hc hidle hidle rfl (hattends.idle hidle rfl hrequests
      (Connection.sound_step (hattends.tracks.idle hidle) he hsession))⟩
  | tooLong i c millis conn n hconn hphase hn hlong =>
    obtain ⟨hc, -, hidle, -⟩ := outstanding_eq_some.mp hconn
    have hattends := h.each conn (List.mem_of_getElem? hc)
    refine Or.inl ⟨?_, hR, h.put hc hidle hidle rfl (hattends.idle hidle rfl rfl
      (Connection.sound_tooLong (hattends.tracks.idle hidle) hphase hn hlong))⟩
    simp [label, applicationEvent, hconn, hn, hlong]
  | read i c millis conn n service hconn hphase hn hfits hservice =>
    obtain ⟨hc, -, hidle, -⟩ := outstanding_eq_some.mp hconn
    obtain ⟨w', hw', hR'⟩ := ServiceApplication.simulation.move hR hservice rfl
    have hsound := (h.each conn (List.mem_of_getElem? hc)).tracks.idle hidle
    refine Or.inr ⟨_, w', ?_, hw', hR',
      h.read hc hidle (Connection.sound_read hsound hphase hn hfits i s.picked) rfl hw' service⟩
    simp [label, applicationEvent, hconn, hn, hfits]
    rfl
  | responded c conn r text service hconn hreader htext hservice =>
    obtain ⟨w', hw', hR'⟩ := ServiceApplication.simulation.move hR hservice rfl
    have hdone := hR.2.worker (returned_iff.mp htext) rfl
    refine Or.inr ⟨_, w', ?_, hw', hR', h.respond hconn hreader hdone hw' service⟩
    simp [label, applicationEvent, hconn, hreader]
    rfl
  | failed i c conn hconn =>
    obtain ⟨hc, -, hidle, -⟩ := outstanding_eq_some.mp hconn
    have hattends := h.each conn (List.mem_of_getElem? hc)
    have hsound := hattends.tracks.idle hidle
    exact Or.inl ⟨rfl, hR, h.put hc hidle hidle rfl (hattends.idle hidle rfl rfl
      ⟨hsound.length, hsound.answers⟩)⟩

/-- Every run of the service is a run of the atomic service. -/
theorem served_of_run {history : OperationHistory} {es : List ConnectionEvent}
    (hrun : (launch history).run M lib workerThreads maxMessageSize es = some s) :
    ∃ w, AtomicService.run M lib history (served M lib workerThreads history
        (applicationEvents M lib workerThreads maxMessageSize (launch history) es)) = some w ∧
      Matches s.service w ∧ Served maxMessageSize s w := by
  obtain ⟨w, hw, ⟨-, hm⟩, hs⟩ := connected.run es
    ⟨⟨orderly_launch history, matches_launch history⟩, served_launch history⟩ hrun
  refine ⟨w, ?_, hm, hs⟩
  have htrace : served M lib workerThreads history
      (applicationEvents M lib workerThreads maxMessageSize (launch history) es) = _ :=
    projection.trace_trace es hrun
  rw [htrace]
  exact hw

end Connected

/-- **Every client gets the answers to its own lines, in order.** In any run of the service with its
connections, whatever statements fail:

* each request that the service has picked up belongs to one line of one connection;
* what a connection has passed to the handler are the first lines of its stream, up to one that is
  too long; what has been written to it are the responses to the first of these, in order;
* each of these responses is what the service answered that request with;
* and a request whose answer a connection still waits for is the next line of its stream. -/
theorem clients_answered (M : CalculatorMath) (lib : Protocol) (workerThreads : Int32)
    (maxMessageSize : ℕ) (history : OperationHistory) (es : List ConnectionEvent)
    (s : ConnectedService)
    (hrun : (launch history).run M lib workerThreads maxMessageSize es = some s) :
    ∃ events, events = applicationEvents M lib workerThreads maxMessageSize (launch history) es ∧
      (ServiceApplication.launch history).run M lib workerThreads events = some s.service ∧
      (s.connections.flatMap Connection.numbers).Perm
        (List.range (events.filterMap requestOf).length) ∧
      ∀ conn ∈ s.connections,
        conn.session.requests <+: Session.requestsIn maxMessageSize conn.stream ∧
        conn.session.written <+: conn.answered.map (fun a => bytesOf a.2 ++ [newline]) ∧
        (∀ r, conn.reader = some r →
          conn.session.requests ++ [r.request] <+: Session.requestsIn maxMessageSize conn.stream ∧
          ∃ call, (events.filterMap requestOf)[r.number]? = some call ∧
            call.json = textOf r.request) ∧
        ∀ (j k : ℕ) (text : String), conn.answered[j]? = some (k, text) → ∃ request call,
          conn.session.requests[j]? = some request ∧ call.json = textOf request ∧
            Answered M lib workerThreads history events k call text := by
  obtain ⟨w, hw, -, hs⟩ := served_of_run hrun
  have happ := application_run hrun
  have htaken := served_taken happ hw
  refine ⟨_, rfl, happ, ?_, fun conn hconn => ?_⟩
  · rw [← htaken, ← hs.picked]
    exact hs.numbered
  · have hattends := hs.each conn hconn
    refine ⟨hattends.tracks.requests_prefix, hattends.tracks.written_prefix, fun r hr => ?_,
      fun j k text hj => ?_⟩
    · obtain ⟨-, call, hcall, hjson⟩ := hattends.reading r hr
      exact ⟨hattends.tracks.next_line hr, call, htaken ▸ hcall, hjson⟩
    · obtain ⟨hmem, call, request, hcall, hrequest, hjson⟩ := hattends.answered j k text hj
      exact ⟨request, call, hrequest, hjson, w, hw, htaken ▸ hcall, hmem⟩

/-- Two network threads, and two clients that send `"1+2\r\n2+1\n"` and `"2+1\n1"`. -/
def twoClients : List ConnectionEvent :=
  [.thread (.startSignals true), .thread (.worker .startClear), .thread (.worker (.startThread {})),
    .thread (.worker .initDone), .thread (.worker .startReturn), .thread .createThread,
    .thread .createThread, .thread .serverStarted,
    .accept 0 [bytesOf "1+", bytesOf "2\r\n2+1\n"], .accept 1 [bytesOf "2+1\n1"],
    .session 0 0 .receive, .session 1 1 .receive, .session 1 0 .receive]

/-- Both requests are handled at the same time, the one of the second client is saved first, and
the first client's next request comes after that. -/
def crossedRequests : List ConnectionEvent :=
  [.readComplete 1 0 ⟨0, 0⟩, .readComplete 0 1 ⟨0, 0⟩, .thread (.network 1 .submit),
    .thread (.network 0 .submit), .thread (.worker .check), .thread (.worker (.runJob .completed)),
    .thread (.worker .check), .thread (.worker (.runJob .completed)), .thread (.network 0 .notify),
    .thread (.network 0 .receive), .thread (.network 0 .submit), .thread (.worker .check),
    .thread (.worker (.runJob .completed)), .thread (.network 1 .notify),
    .thread (.network 1 .receive), .thread (.network 1 .submit), .thread (.worker .check),
    .thread (.worker (.runJob .completed)), .thread (.network 1 .notify),
    .thread (.network 1 .receive), .respond 0, .thread (.network 0 .notify),
    .thread (.network 0 .receive), .respond 1, .session 0 0 .writeComplete,
    .session 1 1 .writeComplete, .readComplete 1 0 ⟨0, 0⟩, .thread (.network 1 .submit),
    .thread (.network 1 .notify), .thread (.worker .check), .thread (.worker (.runJob .completed)),
    .thread (.network 1 .receive), .respond 0, .session 0 0 .writeComplete]

/-- The first client has the answers to its two lines, the second one that to its own. -/
theorem clients_answered_crossed :
    ∃ s, (launch .empty).run .checked sampleProtocol 2 100 (twoClients ++ crossedRequests) =
        some s ∧
      s.connections.map (fun conn => conn.session.written) =
        [[bytesOf "a: 3\n", bytesOf "b from cache: 3\n"], [bytesOf "b: 3\n"]] ∧
      ∀ conn ∈ s.connections,
        conn.session.requests <+: Session.requestsIn 100 conn.stream ∧
        conn.session.written <+: conn.answered.map (fun a => bytesOf a.2 ++ [newline]) := by
  have hend : ((launch .empty).run .checked sampleProtocol 2 100
      (twoClients ++ crossedRequests)).map
        (fun s => s.connections.map fun conn => conn.session.written) =
          some [[bytesOf "a: 3\n", bytesOf "b from cache: 3\n"], [bytesOf "b: 3\n"]] := by
    decide +kernel
  obtain ⟨s, hrun, hs⟩ := Option.map_eq_some_iff.mp hend
  obtain ⟨events, -, -, -, hclients⟩ := clients_answered _ _ _ _ _ _ s hrun
  exact ⟨s, hrun, hs, fun conn hconn => ⟨(hclients conn hconn).1, (hclients conn hconn).2.1⟩⟩

end ConnectedService

end ConsoleCalculator
