import ConsoleCalculator.Base.Exceptions

/-!
# Postconditions about the shared object

`Prog.Sat` says what a program returns. What it returns may also say something about the shared
object (the record is stored), which has to survive what the other threads do. `R s s'` bounds that
from both sides: between two operations of a program the others may lead from `s` to any `s'` with
`R s s'`, and every operation of the program itself is such a step.

* `Relies exec A R Q p s`: from `s` on, with interference within `R`, the operations of `p` are
  steps within `R`, and when it ends with `a`, `Q s' a` holds in every state from then on.

Results:
* `relies_bind`, `relies_andThen`, `relies_tryCatch`, `relies_call`: the rules, for programs that
  may throw as well.
* **`relies_of_sat`**: the rule for invariants is the case in which `R` keeps an invariant.
-/

namespace ConsoleCalculator.Base

variable {Op : Type} {Ans : Op → Type} {α β E σ ε : Type}
  {exec : ε → σ → (o : Op) → σ × Ans o} {A : ε → σ → Op → Prop} {R : σ → σ → Prop}

namespace Prog

/-- From `s` on the program keeps within `R` as long as the others do, and its results satisfy `Q`
in all states from then on. -/
def Relies (exec : ε → σ → (o : Op) → σ × Ans o) (A : ε → σ → Op → Prop) (R : σ → σ → Prop)
    (Q : σ → α → Prop) : Prog Op Ans α → σ → Prop
  | .done a, s => ∀ s', R s s' → Q s' a
  | .call o k, s => ∀ e s', R s s' → A e s' o →
      R s' (exec e s' o).1 ∧ (k (exec e s' o).2).Relies exec A R Q (exec e s' o).1

section Rules

variable {Q : σ → α → Prop} {Q' : σ → β → Prop}

/-- Interference before the program starts. -/
theorem Relies.later (htrans : ∀ s t u, R s t → R t u → R s u) {s s' : σ} (hs : R s s') :
    ∀ {p : Prog Op Ans α}, p.Relies exec A R Q s → p.Relies exec A R Q s'
  | .done _, h => fun u hu => h u (htrans _ _ _ hs hu)
  | .call _ _, h => fun e u hu => h e u (htrans _ _ _ hs hu)

theorem Relies.mono {Q₁ Q₂ : σ → α → Prop} (hQ : ∀ s a, Q₁ s a → Q₂ s a) :
    ∀ {p : Prog Op Ans α} {s : σ}, p.Relies exec A R Q₁ s → p.Relies exec A R Q₂ s
  | .done _, _, h => fun s' hs => hQ s' _ (h s' hs)
  | .call _ _, _, h => fun e s' hs ha => ⟨(h e s' hs ha).1, Relies.mono hQ (h e s' hs ha).2⟩

/-- Sequencing: the second program starts where the first one ended. -/
theorem relies_bind (hrefl : ∀ s, R s s) {f : α → Prog Op Ans β}
    (hf : ∀ s a, Q s a → (f a).Relies exec A R Q' s) :
    ∀ {p : Prog Op Ans α} {s : σ}, p.Relies exec A R Q s → (p.bind f).Relies exec A R Q' s
  | .done _, s, h => hf s _ (h s (hrefl s))
  | .call _ _, _, h => fun e s' hs ha =>
      ⟨(h e s' hs ha).1, relies_bind hrefl hf (h e s' hs ha).2⟩

/-- **Invariants are a case of it**: then the states in which the invariant holds are enough. -/
theorem relies_of_sat {I : σ → Prop} {P : α → Prop} :
    ∀ {p : Prog Op Ans α} {s : σ}, p.Sat exec A I P → I s →
      p.Relies exec A (fun s s' => I s → I s') (fun _ => P) s
  | .done _, _, h, _ => fun _ _ => h
  | .call _ _, _, h, hi => fun e s' hs ha =>
      ⟨fun _ => (h e s' ha (hs hi)).1,
        relies_of_sat (h e s' ha (hs hi)).2 (h e s' ha (hs hi)).1⟩

end Rules

end Prog

namespace Throwing

open Prog

variable {V : σ → α → Prop} {V' : σ → β → Prop} {X X' : σ → E → Prop}

/-- A value satisfying `V` in the state, or an exception satisfying `X` in it. -/
def PostAt (V : σ → α → Prop) (X : σ → E → Prop) (s : σ) : Outcome E α → Prop
  | .value a => V s a
  | .thrown e => X s e
  | .undefined => True

theorem postAt_mono {W : σ → α → Prop} {Y : σ → E → Prop} (hV : ∀ s a, V s a → W s a)
    (hX : ∀ s e, X s e → Y s e) : ∀ s (out : Outcome E α), PostAt V X s out → PostAt W Y s out
  | s, .value a, h => hV s a h
  | s, .thrown e, h => hX s e h
  | _, .undefined, _ => trivial

/-- A program that has ended: what it says survives. -/
theorem relies_done {Q : σ → Outcome E α → Prop} {out : Outcome E α} {s : σ}
    (hQ : ∀ s', R s s' → Q s' out) :
    (Prog.done out : Throwing Op Ans E α).Relies exec A R Q s := hQ

theorem relies_andThen (hrefl : ∀ s, R s s) (hX : ∀ s s' e, R s s' → X s e → X s' e)
    {p : Throwing Op Ans E α} {f : α → Throwing Op Ans E β} {s : σ}
    (hp : p.Relies exec A R (PostAt V X) s)
    (hf : ∀ s a, V s a → (f a).Relies exec A R (PostAt V' X) s) :
    (andThen p f).Relies exec A R (PostAt V' X) s := by
  refine relies_bind hrefl (fun s out h => ?_) hp
  cases out with
  | value a => exact hf s a h
  | thrown e => exact relies_done fun s' hs => hX s s' e hs h
  | undefined => exact relies_done fun _ _ => trivial

theorem relies_tryCatch (hrefl : ∀ s, R s s) (hV : ∀ s s' a, R s s' → V s a → V s' a)
    {p : Throwing Op Ans E α} {handler : E → Throwing Op Ans E α} {s : σ}
    (hp : p.Relies exec A R (PostAt V X) s)
    (hh : ∀ s e, X s e → (handler e).Relies exec A R (PostAt V X') s) :
    (tryCatch p handler).Relies exec A R (PostAt V X') s := by
  refine relies_bind hrefl (fun s out h => ?_) hp
  cases out with
  | value a => exact relies_done fun s' hs => hV s s' a hs h
  | thrown e => exact hh s e h
  | undefined => exact relies_done fun _ _ => trivial

theorem relies_ofExcept {x : Except E α} {s : σ} (hv : ∀ a, x = .ok a → ∀ s', R s s' → V s' a)
    (hx : ∀ e, x = .error e → ∀ s', R s s' → X s' e) :
    (ofExcept x : Throwing Op Ans E α).Relies exec A R (PostAt V X) s := by
  cases x with
  | ok a => exact relies_done fun s' hs => hv a rfl s' hs
  | error e => exact relies_done fun s' hs => hx e rfl s' hs

/-- One operation whose answer is a value or an exception. -/
theorem relies_call {o : Op} {k : Ans o → Except E α} {s : σ}
    (hV : ∀ s s' a, R s s' → V s a → V s' a) (hX : ∀ s s' e, R s s' → X s e → X s' e)
    (h : ∀ e s', R s s' → A e s' o → R s' (exec e s' o).1 ∧
      (∀ a, k (exec e s' o).2 = .ok a → V (exec e s' o).1 a) ∧
      ∀ x, k (exec e s' o).2 = .error x → X (exec e s' o).1 x) :
    (Prog.call o fun r => (ofExcept (k r) : Throwing Op Ans E α)).Relies exec A R
      (PostAt V X) s := by
  intro e s' hs ha
  obtain ⟨hR, hv, hx⟩ := h e s' hs ha
  exact ⟨hR, relies_ofExcept (fun a hk s'' hs'' => hV _ s'' a hs'' (hv a hk))
    fun x hk s'' hs'' => hX _ s'' x hs'' (hx x hk)⟩

end Throwing

end ConsoleCalculator.Base
