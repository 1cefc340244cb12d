import Mathlib.Data.List.Basic

/-!
# Machines with a partial step function

`step s e = some s'` says that the event `e` is possible in `s` and leads to `s'`; where it is
`none` the event cannot happen there. A run is a list of events, each possible where it happens.

Results:
* `runSteps_keeps`, `runSteps_invariant`: what every step keeps, every run keeps.
* `runSteps_countP`: what only some events raise is bounded by their number.
* **`along_iff_guarded`**: a property of states holds in all states of a run iff a condition on its
  events holds where they happen, provided it does for one step.
* `runSteps_countP_bounded`, **`runSteps_bounded`**, **`exists_quiescent`**: events that lower a
  measure, at least where an invariant holds, can only go on for so long, and lead to a state where
  none of them is possible.
-/

namespace ConsoleCalculator.Base

variable {σ ℓ : Type} {step : σ → ℓ → Option σ}

/-- The state a run leads to, if each of its events is possible. -/
def runSteps (step : σ → ℓ → Option σ) : σ → List ℓ → Option σ
  | s, [] => some s
  | s, e :: es => (step s e).bind fun s' => runSteps step s' es

theorem runSteps_cons {s s' : σ} {e : ℓ} {es : List ℓ} (h : runSteps step s (e :: es) = some s') :
    ∃ t, step s e = some t ∧ runSteps step t es = some s' :=
  Option.bind_eq_some_iff.mp h

theorem runSteps_append (s : σ) : ∀ es es' : List ℓ,
    runSteps step s (es ++ es') = (runSteps step s es).bind fun t => runSteps step t es'
  | [], _ => rfl
  | e :: es, es' => by
    rw [List.cons_append, runSteps, runSteps, Option.bind_assoc]
    congr 1
    funext t
    exact runSteps_append t es es'

/-- Where every event is possible, a run is a fold. -/
theorem runSteps_total (next : σ → ℓ → σ) : ∀ (es : List ℓ) (s : σ),
    runSteps (fun s e => some (next s e)) s es = some (es.foldl next s)
  | [], _ => rfl
  | e :: es, s => runSteps_total next es (next s e)

/-- What every event of a kind keeps, every run of such events keeps. -/
theorem runSteps_keeps {C : ℓ → Prop} {I : σ → Prop}
    (hI : ∀ s e s', C e → I s → step s e = some s' → I s') :
    ∀ (es : List ℓ) {s s' : σ}, (∀ e ∈ es, C e) → I s → runSteps step s es = some s' → I s'
  | [], _, _, _, hs, h => Option.some.inj h ▸ hs
  | e :: es, s, _, hC, hs, h => by
    obtain ⟨t, ht, hrest⟩ := runSteps_cons h
    exact runSteps_keeps hI es (fun e' he' => hC e' (List.mem_cons_of_mem e he'))
      (hI s e t (hC e List.mem_cons_self) hs ht) hrest

/-- An invariant of the steps is one of the runs. -/
theorem runSteps_invariant {I : σ → Prop} (hI : ∀ s e s', I s → step s e = some s' → I s')
    (es : List ℓ) {s s' : σ} (hs : I s) (h : runSteps step s es = some s') : I s' :=
  runSteps_keeps (C := fun _ => True) (fun s e s' _ => hI s e s') es (fun _ _ => trivial) hs h

/-- A quantity that only events of a kind raise, and each by at most one. -/
theorem runSteps_countP {m : σ → ℕ} {p : ℓ → Bool} {I : σ → Prop}
    (hI : ∀ s e s', I s → step s e = some s' → I s')
    (hm : ∀ s e s', I s → step s e = some s' → m s' ≤ m s + if p e then 1 else 0) :
    ∀ (es : List ℓ) {s s' : σ}, I s → runSteps step s es = some s' → m s' ≤ m s + es.countP p
  | [], _, _, _, h => by
    obtain rfl := Option.some.inj h
    simp
  | e :: es, s, s', hs, h => by
    obtain ⟨t, ht, hrest⟩ := runSteps_cons h
    have hone := hm s e t hs ht
    have hmore := runSteps_countP hI hm es (hI s e t hs ht) hrest
    rw [List.countP_cons]
    omega

/-- `P` holds in every state of the run, the first included. -/
def Along (step : σ → ℓ → Option σ) (P : σ → Prop) : σ → List ℓ → Prop
  | s, [] => P s
  | s, e :: es => P s ∧ ∀ s', step s e = some s' → Along step P s' es

/-- Every event of the run happens where `G` allows it. -/
def Guarded (step : σ → ℓ → Option σ) (G : σ → ℓ → Prop) : σ → List ℓ → Prop
  | _, [] => True
  | s, e :: es => G s e ∧ ∀ s', step s e = some s' → Guarded step G s' es

/-- Events that are allowed wherever they happen. -/
theorem guarded_of_forall {G : σ → ℓ → Prop} :
    ∀ {es : List ℓ} {s : σ}, (∀ e ∈ es, ∀ s, G s e) → Guarded step G s es
  | [], _, _ => trivial
  | e :: _, _, h => ⟨h e List.mem_cons_self _, fun _ _ =>
      guarded_of_forall fun e' he' => h e' (List.mem_cons_of_mem e he')⟩

theorem guarded_cons {G : σ → ℓ → Prop} {s s' : σ} {e : ℓ} {es : List ℓ}
    (hstep : step s e = some s') (he : G s e) (hrest : Guarded step G s' es) :
    Guarded step G s (e :: es) := by
  refine ⟨he, fun t ht => ?_⟩
  obtain rfl := Option.some.inj (hstep.symm.trans ht)
  exact hrest

theorem Along.head {P : σ → Prop} {s : σ} : ∀ {es : List ℓ}, Along step P s es → P s
  | [], h => h
  | _ :: _, h => h.1

/-- **Exact guards.** If in states of `I` and `P` an event leads to a state of `P` exactly when it
is guarded, then a run stays in `P` exactly when all its events are guarded. -/
theorem along_iff_guarded {I P : σ → Prop} {G : σ → ℓ → Prop}
    (hI : ∀ s e s', I s → step s e = some s' → I s')
    (hG : ∀ s e s', I s → P s → step s e = some s' → (P s' ↔ G s e)) :
    ∀ (es : List ℓ) {s : σ}, I s → P s → (runSteps step s es).isSome = true →
      (Along step P s es ↔ Guarded step G s es)
  | [], _, _, hP, _ => ⟨fun _ => trivial, fun _ => hP⟩
  | e :: es, s, hi, hP, hrun => by
    obtain ⟨s', hrun⟩ := Option.isSome_iff_exists.mp hrun
    obtain ⟨t, ht, hrest⟩ := runSteps_cons hrun
    have hone := hG s e t hi hP ht
    have hrec : P t → (Along step P t es ↔ Guarded step G t es) := fun hPt =>
      along_iff_guarded hI hG es (hI s e t hi ht) hPt (Option.isSome_iff_exists.mpr ⟨s', hrest⟩)
    constructor
    · rintro ⟨-, hall⟩
      have hPt := (hall t ht).head
      refine ⟨hone.mp hPt, fun u hu => ?_⟩
      obtain rfl := Option.some.inj (ht.symm.trans hu)
      exact (hrec hPt).mp (hall t ht)
    · rintro ⟨hg, hall⟩
      refine ⟨hP, fun u hu => ?_⟩
      obtain rfl := Option.some.inj (ht.symm.trans hu)
      exact (hrec (hone.mpr hg)).mpr (hall t ht)

/-- Some run leads from `s` to `s'`. -/
def Reaches (step : σ → ℓ → Option σ) (s s' : σ) : Prop :=
  ∃ es, runSteps step s es = some s'

theorem Reaches.refl (s : σ) : Reaches step s s := ⟨[], rfl⟩

theorem Reaches.head {s t u : σ} {e : ℓ} (h : step s e = some t) (hrest : Reaches step t u) :
    Reaches step s u := by
  obtain ⟨es, hes⟩ := hrest
  exact ⟨e :: es, by rw [runSteps, h, Option.bind_some, hes]⟩

theorem Reaches.trans {s t u : σ} (h : Reaches step s t) (hrest : Reaches step t u) :
    Reaches step s u := by
  obtain ⟨es, hes⟩ := h
  obtain ⟨es', hes'⟩ := hrest
  exact ⟨es ++ es', by rw [runSteps_append, hes, Option.bind_some, hes']⟩

section Measure

variable {m : σ → ℕ} {C : ℓ → Prop} {I : σ → Prop}

/-- Where events keep an invariant and do not raise a measure, those that lower it can happen no
more often than the measure allows. -/
theorem runSteps_countP_bounded {p : ℓ → Bool}
    (hI : ∀ s e s', C e → I s → step s e = some s' → I s')
    (hm : ∀ s e s', C e → I s → step s e = some s' → (m s' + if p e then 1 else 0) ≤ m s) :
    ∀ (es : List ℓ) {s s' : σ}, (∀ e ∈ es, C e) → I s → runSteps step s es = some s' →
      es.countP p + m s' ≤ m s
  | [], _, _, _, _, h => by
    obtain rfl := Option.some.inj h
    simp
  | e :: es, s, s', hC, hs, h => by
    obtain ⟨t, ht, hrest⟩ := runSteps_cons h
    have hone := hm s e t (hC e List.mem_cons_self) hs ht
    have hmore := runSteps_countP_bounded hI hm es
      (fun e' he' => hC e' (List.mem_cons_of_mem e he'))
      (hI s e t (hC e List.mem_cons_self) hs ht) hrest
    rw [List.countP_cons]
    omega

/-- Events that keep an invariant, and lower a measure where it holds, can happen no more often
than the measure allows. -/
theorem runSteps_bounded (hI : ∀ s e s', C e → I s → step s e = some s' → I s')
    (hm : ∀ s e s', C e → I s → step s e = some s' → m s' < m s) (es : List ℓ) {s s' : σ}
    (hC : ∀ e ∈ es, C e) (hs : I s) (h : runSteps step s es = some s') :
    es.length + m s' ≤ m s := by
  have hcount := runSteps_countP_bounded (p := fun _ => true) hI
    (fun s e s' he hi hstep => hm s e s' he hi hstep) es hC hs h
  rwa [List.countP_true] at hcount

/-- Such events lead to a state in which none of them is possible. -/
theorem exists_quiescent (hI : ∀ s e s', C e → I s → step s e = some s' → I s')
    (hm : ∀ s e s', C e → I s → step s e = some s' → m s' < m s) (s : σ) (hs : I s) :
    ∃ es s', (∀ e ∈ es, C e) ∧ runSteps step s es = some s' ∧ ∀ e, C e → step s' e = none := by
  induction hn : m s using Nat.strongRecOn generalizing s with
  | ind n ih =>
    by_cases hq : ∀ e, C e → step s e = none
    · exact ⟨[], s, fun e he => absurd he List.not_mem_nil, rfl, hq⟩
    · obtain ⟨e, he⟩ := not_forall.mp hq
      obtain ⟨hC, hne⟩ := Classical.not_imp.mp he
      obtain ⟨t, ht⟩ := Option.ne_none_iff_exists'.mp hne
      obtain ⟨es, s', hes, hrun, hquiet⟩ :=
        ih (m t) (hn ▸ hm s e t hC hs ht) t (hI s e t hC hs ht) rfl
      refine ⟨e :: es, s', ?_, ?_, hquiet⟩
      · intro e' he'
        rcases List.mem_cons.mp he' with rfl | he'
        · exact hC
        · exact hes e' he'
      · simp only [runSteps, ht, Option.bind_some, hrun]

end Measure

end ConsoleCalculator.Base
