import ConsoleCalculator.Base.Interleave

/-!
# Programs that may throw

A `Prog` whose result is an `Outcome`: a value, an exception of type `E`, or `undefined` for code
without a defined meaning, which no handler catches. `andThen` and `tryCatch` are sequencing and
`try … catch (…)`.

Results, for a postcondition with one part for values and one for exceptions (`PostOr`; `Post`
rules `undefined` out):
* `eval_andThen_value`, …, `eval_tryCatch_undefined`: how a composed program runs alone.
* `sat_andThen`, `sat_tryCatch`, `sat_ofExcept`: the rules of the exception calculus.
* `endsWithin_andThen`, `endsWithin_tryCatch`: how many operations a composed program issues.
* `related_andThen`, `related_tryCatch`: the same for two programs run side by side.
-/

namespace ConsoleCalculator.Base

/-- How a program that may throw ends. -/
inductive Outcome (E α : Type) where
  | value (a : α)
  | thrown (e : E)
  | undefined
  deriving DecidableEq, Repr

/-- A program over a shared object that may throw. -/
@[reducible] def Throwing (Op : Type) (Ans : Op → Type) (E α : Type) : Type :=
  Prog Op Ans (Outcome E α)

variable {Op : Type} {Ans : Op → Type} {E α β σ ε : Type}

namespace Outcome

/-- A value satisfying `V`, an exception satisfying `X`, or `undefined` where `U` allows it. -/
def PostOr (U : Prop) (V : α → Prop) (X : E → Prop) : Outcome E α → Prop
  | .value a => V a
  | .thrown e => X e
  | .undefined => U

/-- A value satisfying `V`, or an exception satisfying `X`. -/
abbrev Post (V : α → Prop) (X : E → Prop) : Outcome E α → Prop := PostOr False V X

theorem exists_value {V : α → Prop} : ∀ {out : Outcome E α}, Post V (fun _ => False) out →
    ∃ a, out = .value a
  | .value a, _ => ⟨a, rfl⟩

theorem exists_thrown {X : E → Prop} : ∀ {out : Outcome E α}, Post (fun _ => False) X out →
    ∃ e, out = .thrown e
  | .thrown e, _ => ⟨e, rfl⟩

/-- Two values related by `V`, or the same exception satisfying `X`. -/
inductive Same (V : α → β → Prop) (X : E → Prop) : Outcome E α → Outcome E β → Prop
  | value {a : α} {b : β} (h : V a b) : Same V X (.value a) (.value b)
  | thrown {e : E} (h : X e) : Same V X (.thrown e) (.thrown e)
  | undefined : Same V X .undefined .undefined

end Outcome

namespace Throwing

/-- Sequencing: an exception, or undefined behaviour, skips the rest. -/
def andThen (p : Throwing Op Ans E α) (f : α → Throwing Op Ans E β) : Throwing Op Ans E β :=
  p.bind fun
    | .value a => f a
    | .thrown e => .done (.thrown e)
    | .undefined => .done .undefined

/-- `try { p } catch (…) { … }`. -/
def tryCatch (p : Throwing Op Ans E α) (handler : E → Throwing Op Ans E α) :
    Throwing Op Ans E α :=
  p.bind fun
    | .value a => .done (.value a)
    | .thrown e => handler e
    | .undefined => .done .undefined

/-- Code that does not touch the shared object. -/
def ofExcept : Except E α → Throwing Op Ans E α
  | .ok a => .done (.value a)
  | .error e => .done (.thrown e)

@[simp] theorem ok_andThen (a : α) (f : α → Throwing Op Ans E β) :
    andThen (ofExcept (.ok a)) f = f a := rfl

@[simp] theorem error_andThen (e : E) (f : α → Throwing Op Ans E β) :
    andThen (ofExcept (.error e)) f = .done (.thrown e) := rfl

@[simp] theorem thrown_tryCatch (e : E) (handler : E → Throwing Op Ans E α) :
    tryCatch (.done (.thrown e)) handler = handler e := rfl

section Eval

variable {exec : σ → (o : Op) → σ × Ans o} {s s' : σ}

theorem eval_andThen_value {p : Throwing Op Ans E α} {f : α → Throwing Op Ans E β} {a : α}
    (h : p.eval exec s = (s', .value a)) : (andThen p f).eval exec s = (f a).eval exec s' := by
  rw [andThen, Prog.eval_bind, h]

theorem eval_andThen_thrown {p : Throwing Op Ans E α} {f : α → Throwing Op Ans E β} {e : E}
    (h : p.eval exec s = (s', .thrown e)) : (andThen p f).eval exec s = (s', .thrown e) := by
  rw [andThen, Prog.eval_bind, h]
  rfl

theorem eval_tryCatch_value {p : Throwing Op Ans E α} {handler : E → Throwing Op Ans E α} {a : α}
    (h : p.eval exec s = (s', .value a)) : (tryCatch p handler).eval exec s = (s', .value a) := by
  rw [tryCatch, Prog.eval_bind, h]
  rfl

theorem eval_tryCatch_thrown {p : Throwing Op Ans E α} {handler : E → Throwing Op Ans E α} {e : E}
    (h : p.eval exec s = (s', .thrown e)) :
    (tryCatch p handler).eval exec s = (handler e).eval exec s' := by
  rw [tryCatch, Prog.eval_bind, h]

theorem eval_tryCatch_undefined {p : Throwing Op Ans E α} {handler : E → Throwing Op Ans E α}
    (h : p.eval exec s = (s', .undefined)) :
    (tryCatch p handler).eval exec s = (s', .undefined) := by
  rw [tryCatch, Prog.eval_bind, h]
  rfl

end Eval

theorem endsWithin_ofExcept (n : ℕ) (x : Except E α) :
    (ofExcept x : Throwing Op Ans E α).EndsWithin n := by
  cases x <;> cases n <;> trivial

theorem endsWithin_andThen {n m : ℕ} {p : Throwing Op Ans E α} {f : α → Throwing Op Ans E β}
    (hp : p.EndsWithin n) (hf : ∀ a, (f a).EndsWithin m) : (andThen p f).EndsWithin (n + m) := by
  refine Prog.endsWithin_bind (fun out => ?_) hp
  cases out with
  | value a => exact hf a
  | thrown e => cases m <;> trivial
  | undefined => cases m <;> trivial

theorem endsWithin_ofExcept_andThen {n : ℕ} (x : Except E α) {f : α → Throwing Op Ans E β}
    (hf : ∀ a, (f a).EndsWithin n) : (andThen (ofExcept x) f).EndsWithin n :=
  Prog.endsWithin_mono (by omega) (endsWithin_andThen (endsWithin_ofExcept 0 x) hf)

theorem endsWithin_tryCatch {n m : ℕ} {p : Throwing Op Ans E α}
    {handler : E → Throwing Op Ans E α} (hp : p.EndsWithin n)
    (hh : ∀ e, (handler e).EndsWithin m) : (tryCatch p handler).EndsWithin (n + m) := by
  refine Prog.endsWithin_bind (fun out => ?_) hp
  cases out with
  | value a => cases m <;> trivial
  | thrown e => exact hh e
  | undefined => cases m <;> trivial

section Sat

variable {exec : ε → σ → (o : Op) → σ × Ans o} {A : ε → σ → Op → Prop} {I : σ → Prop}
  {U : Prop}

theorem sat_andThen {V : α → Prop} {V' : β → Prop} {X : E → Prop} {p : Throwing Op Ans E α}
    {f : α → Throwing Op Ans E β} (hp : p.Sat exec A I (Outcome.PostOr U V X))
    (hf : ∀ a, V a → (f a).Sat exec A I (Outcome.PostOr U V' X)) :
    (andThen p f).Sat exec A I (Outcome.PostOr U V' X) := by
  refine Prog.sat_bind (fun out h => ?_) hp
  cases out with
  | value a => exact hf a h
  | thrown e => exact h
  | undefined => exact h

theorem sat_tryCatch {V : α → Prop} {X X' : E → Prop} {p : Throwing Op Ans E α}
    {handler : E → Throwing Op Ans E α} (hp : p.Sat exec A I (Outcome.PostOr U V X))
    (hh : ∀ e, X e → (handler e).Sat exec A I (Outcome.PostOr U V X')) :
    (tryCatch p handler).Sat exec A I (Outcome.PostOr U V X') := by
  refine Prog.sat_bind (fun out h => ?_) hp
  cases out with
  | value a => exact h
  | thrown e => exact hh e h
  | undefined => exact h

theorem sat_ofExcept {V : α → Prop} {X : E → Prop} {x : Except E α}
    (hv : ∀ a, x = .ok a → V a) (hx : ∀ e, x = .error e → X e) :
    (ofExcept x : Throwing Op Ans E α).Sat exec A I (Outcome.PostOr U V X) := by
  cases x with
  | ok a => exact hv a rfl
  | error e => exact hx e rfl

/-- One operation whose answer is a value or an exception. -/
theorem sat_call {V : α → Prop} {X : E → Prop} {o : Op} {k : Ans o → Except E α}
    (h : ∀ e s, A e s o → I s → I (exec e s o).1 ∧
      (∀ a, k (exec e s o).2 = .ok a → V a) ∧ ∀ x, k (exec e s o).2 = .error x → X x) :
    (Prog.call o fun r => (ofExcept (k r) : Throwing Op Ans E α)).Sat exec A I
      (Outcome.PostOr U V X) := by
  intro e s ha hi
  obtain ⟨hI, hv, hx⟩ := h e s ha hi
  exact ⟨hI, sat_ofExcept hv hx⟩

end Sat

section Related

variable {R : (o : Op) → Ans o → Ans o → Prop} {α' β' : Type} {X X' : E → Prop}

theorem related_ofExcept {x : Except E α} (hx : ∀ e, x = .error e → X e) :
    Prog.Related R (Outcome.Same Eq X) (ofExcept x : Throwing Op Ans E α) (ofExcept x) := by
  cases x with
  | ok a => exact .done (.value rfl)
  | error e => exact .done (.thrown (hx e rfl))

theorem related_andThen {V : α → α' → Prop} {V' : β → β' → Prop} {p : Throwing Op Ans E α}
    {q : Throwing Op Ans E α'} {f : α → Throwing Op Ans E β} {g : α' → Throwing Op Ans E β'}
    (hp : Prog.Related R (Outcome.Same V X) p q)
    (hf : ∀ a b, V a b → Prog.Related R (Outcome.Same V' X) (f a) (g b)) :
    Prog.Related R (Outcome.Same V' X) (andThen p f) (andThen q g) := by
  refine Prog.related_bind hp fun out out' h => ?_
  cases h with
  | value h => exact hf _ _ h
  | thrown h => exact .done (.thrown h)
  | undefined => exact .done .undefined

theorem related_tryCatch {V : α → α' → Prop} {p : Throwing Op Ans E α}
    {q : Throwing Op Ans E α'} {f : E → Throwing Op Ans E α} {g : E → Throwing Op Ans E α'}
    (hp : Prog.Related R (Outcome.Same V X) p q)
    (hf : ∀ e, X e → Prog.Related R (Outcome.Same V X') (f e) (g e)) :
    Prog.Related R (Outcome.Same V X') (tryCatch p f) (tryCatch q g) := by
  refine Prog.related_bind hp fun out out' h => ?_
  cases h with
  | value h => exact .done (.value h)
  | thrown h => exact hf _ h
  | undefined => exact .done .undefined

end Related

end Throwing

end ConsoleCalculator.Base
