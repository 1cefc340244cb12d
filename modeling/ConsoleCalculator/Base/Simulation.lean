import ConsoleCalculator.Base.Machine

/-!
# One machine refines another

Two machines with partial step functions. An event of the one below is at most one event of the one
above: `label s e` names it, `none` stands for a step that does not show. The label may look at the
state, since an event below need not say on whose behalf it happens.

Results:
* **`Simulation.run`**: a run below is a run above, of the events its own events stand for
  (`trace`), and ends in related states.
* `Simulation.trace_trace`: one simulation on top of another.
* `filterMap_trace`: what the events above say about those below.
* **`Simulation.guarded`**: where the events of a run below are allowed, so are those above.
-/

namespace ConsoleCalculator.Base

variable {σ τ ℓ μ ν : Type} {step : σ → ℓ → Option σ} {step' : τ → μ → Option τ}
  {label : σ → ℓ → Option μ} {R : σ → τ → Prop}

/-- The events above that the events of a run stand for, as far as they are possible. -/
def trace (step : σ → ℓ → Option σ) (label : σ → ℓ → Option μ) : σ → List ℓ → List μ
  | _, [] => []
  | s, e :: es =>
    match step s e with
    | some s' => (label s e).toList ++ trace step label s' es
    | none => []

/-- A forward simulation: steps without a label do not show, the others are matched. -/
structure Simulation (step : σ → ℓ → Option σ) (step' : τ → μ → Option τ)
    (label : σ → ℓ → Option μ) (R : σ → τ → Prop) : Prop where
  idle : ∀ {s t e s'}, R s t → step s e = some s' → label s e = none → R s' t
  move : ∀ {s t e s' a}, R s t → step s e = some s' → label s e = some a →
    ∃ t', step' t a = some t' ∧ R s' t'

/-- The two cases of a step, in one. -/
theorem Simulation.of_step
    (h : ∀ {s t e s'}, R s t → step s e = some s' → (label s e = none ∧ R s' t) ∨
      ∃ a t', label s e = some a ∧ step' t a = some t' ∧ R s' t') :
    Simulation step step' label R where
  idle hR hstep hnone := by
    rcases h hR hstep with ⟨-, hR'⟩ | ⟨a, -, ha, -⟩
    · exact hR'
    · rw [hnone] at ha
      cases ha
  move hR hstep hsome := by
    rcases h hR hstep with ⟨hnone, -⟩ | ⟨a, t', ha, ht', hR'⟩
    · rw [hnone] at hsome
      cases hsome
    · obtain rfl := Option.some.inj (hsome.symm.trans ha)
      exact ⟨t', ht', hR'⟩

/-- An invariant of the machine below may be added to the relation. -/
theorem Simulation.with_invariant {I : σ → Prop} (h : Simulation step step' label R)
    (hI : ∀ {s t e s'}, R s t → I s → step s e = some s' → I s') :
    Simulation step step' label fun s t => R s t ∧ I s where
  idle hR hstep hnone := ⟨h.idle hR.1 hstep hnone, hI hR.1 hR.2 hstep⟩
  move hR hstep hsome := by
    obtain ⟨t', ht', hR'⟩ := h.move hR.1 hstep hsome
    exact ⟨t', ht', hR', hI hR.1 hR.2 hstep⟩

theorem trace_cons {s s' : σ} {e : ℓ} (h : step s e = some s') (es : List ℓ) :
    trace step label s (e :: es) = (label s e).toList ++ trace step label s' es := by
  simp only [trace, h]

/-- The trace of a run in two parts. -/
theorem trace_append : ∀ (es es' : List ℓ) {s s' : σ}, runSteps step s es = some s' →
    trace step label s (es ++ es') = trace step label s es ++ trace step label s' es'
  | [], _, _, _, h => by
    obtain rfl := Option.some.inj h
    rfl
  | e :: es, es', s, s', h => by
    obtain ⟨t, ht, hrest⟩ := runSteps_cons h
    rw [List.cons_append, trace_cons ht, trace_cons ht, trace_append es es' hrest,
      List.append_assoc]

/-- A run below is a run above, if its steps are matched where a guard holds. -/
theorem run_guarded {G : σ → ℓ → Prop}
    (h : ∀ {s t e s'}, R s t → G s e → step s e = some s' → (label s e = none ∧ R s' t) ∨
      ∃ a t', label s e = some a ∧ step' t a = some t' ∧ R s' t') :
    ∀ (es : List ℓ) {s s' : σ} {t : τ}, R s t → Guarded step G s es →
      runSteps step s es = some s' →
      ∃ t', runSteps step' t (trace step label s es) = some t' ∧ R s' t'
  | [], _, _, t, hR, _, hrun => by
    obtain rfl := Option.some.inj hrun
    exact ⟨t, rfl, hR⟩
  | e :: es, s, s', t, hR, hg, hrun => by
    obtain ⟨u, hu, hrest⟩ := runSteps_cons hrun
    have hgu := hg.2 u hu
    rw [trace_cons hu]
    rcases h hR hg.1 hu with ⟨hlabel, hRu⟩ | ⟨a, v, hlabel, hv, hRv⟩
    · rw [hlabel]
      exact run_guarded h es hRu hgu hrest
    · obtain ⟨t', ht', hR'⟩ := run_guarded h es hRv hgu hrest
      refine ⟨t', ?_, hR'⟩
      rw [hlabel]
      show ((step' t a).bind fun t => runSteps step' t (trace step label u es)) = some t'
      rw [hv]
      exact ht'

/-- **A run below is a run above.** -/
theorem Simulation.run (h : Simulation step step' label R) (es : List ℓ) {s s' : σ} {t : τ}
    (hR : R s t) (hrun : runSteps step s es = some s') :
    ∃ t', runSteps step' t (trace step label s es) = some t' ∧ R s' t' := by
  refine run_guarded (G := fun _ _ => True) (fun {s t e s'} hR _ hstep => ?_) es hR
    (guarded_of_forall fun _ _ _ => trivial) hrun
  cases hlabel : label s e with
  | none => exact Or.inl ⟨rfl, h.idle hR hstep hlabel⟩
  | some a =>
    obtain ⟨t', ht', hR'⟩ := h.move hR hstep hlabel
    exact Or.inr ⟨a, t', rfl, ht', hR'⟩

/-- Two levels at once: the events of the highest one, through those of the one between. -/
theorem Simulation.trace_trace {f : σ → τ} {label' : τ → μ → Option ν}
    (h : Simulation step step' label fun s t => f s = t) :
    ∀ (es : List ℓ) {s s' : σ}, runSteps step s es = some s' →
      trace step' label' (f s) (trace step label s es) =
        trace step (fun s e => (label s e).bind (label' (f s))) s es
  | [], _, _, _ => rfl
  | e :: es, s, s', hrun => by
    obtain ⟨u, hu, hrest⟩ := runSteps_cons hrun
    have hlater : trace step' label' (f u) (trace step label u es) = _ := h.trace_trace es hrest
    rw [trace_cons hu, trace_cons hu]
    cases hlabel : label s e with
    | none =>
      have hsame : f u = f s := h.idle rfl hu hlabel
      rw [hsame] at hlater
      exact hlater
    | some a =>
      obtain ⟨t, ht, rfl⟩ := h.move rfl hu hlabel
      rw [← hlater]
      exact trace_cons ht _

/-- What can be read off the labels can be read off the run. -/
theorem filterMap_trace {f : μ → Option ν} {g : ℓ → Option ν}
    (h : ∀ s e s', step s e = some s' → (label s e).bind f = g e) :
    ∀ (es : List ℓ) {s s' : σ}, runSteps step s es = some s' →
      (trace step label s es).filterMap f = es.filterMap g
  | [], _, _, _ => rfl
  | e :: es, s, s', hrun => by
    obtain ⟨u, hu, hrest⟩ := runSteps_cons hrun
    rw [trace_cons hu, List.filterMap_append, filterMap_trace h es hrest]
    have hone := h s e u hu
    cases hlabel : label s e with
    | none =>
      rw [hlabel] at hone
      simp [← hone]
    | some a =>
      rw [hlabel] at hone
      have hone : f a = g e := hone
      simp only [Option.toList_some, List.filterMap_cons, List.filterMap_nil, hone]
      cases g e <;> rfl

/-- Labels that do not depend on the state. -/
theorem trace_eq_filterMap {f : ℓ → Option μ} {s s' : σ} {es : List ℓ}
    (hrun : runSteps step s es = some s') : trace step (fun _ => f) s es = es.filterMap f := by
  rw [← filterMap_trace (fun _ e _ _ => Option.bind_fun_some (f e)) es hrun, List.filterMap_some]

/-- **Guards carry over.** -/
theorem Simulation.guarded {G : σ → ℓ → Prop} {G' : τ → μ → Prop}
    (h : Simulation step step' label R)
    (hG : ∀ {s t e s' a}, R s t → step s e = some s' → label s e = some a → G s e → G' t a) :
    ∀ (es : List ℓ) {s s' : σ} {t : τ}, R s t → runSteps step s es = some s' →
      Guarded step G s es → Guarded step' G' t (trace step label s es)
  | [], _, _, _, _, _, _ => trivial
  | e :: es, s, s', t, hR, hrun, hg => by
    obtain ⟨u, hu, hrest⟩ := runSteps_cons hrun
    have hgu := hg.2 u hu
    rw [trace_cons hu]
    cases hlabel : label s e with
    | none => exact h.guarded hG es (h.idle hR hu hlabel) hrest hgu
    | some a =>
      obtain ⟨v, hv, hRv⟩ := h.move hR hu hlabel
      refine ⟨hG hR hu hlabel hg.1, fun v' hv' => ?_⟩
      obtain rfl := Option.some.inj (hv.symm.trans hv')
      exact h.guarded hG es hRv hrest hgu

end ConsoleCalculator.Base
