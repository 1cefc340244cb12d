import Mathlib.Data.List.Basic
import Mathlib.Data.Nat.Find

/-!
# Sequential programs over one shared object, and their interleavings

A program (`Prog`) is a finite tree: it ends with a result, or it issues one atomic operation on
the shared object and continues with the answer. A `Pool` is the shared object together with the
programs of all threads. One `Move` lets one thread issue its next operation, or lets an event
outside the threads happen to the object; a run is a list of moves, so "every interleaving" is
"every list". The operation may depend on a choice `e : ε` of the environment (which statement
fails, say); `A e s o` restricts the choices a run may make.

Results:
* `Prog.sat_bind`: the rule for sequencing.
* **`Pool.run_sat`**: if every program keeps `I` whenever it issues an operation in a state
  where `I` holds (`Prog.Sat`), then along every admissible interleaving `I` holds, and every
  thread that has ended has a result satisfying its own postcondition. No thread has to know
  where the others are.
* **`Pool.run_ends`**: a thread whose program issues at most `n` operations has ended once it had
  `n` turns, whatever the others do.
* **`Prog.eval_related`**: two programs whose continuations agree on related answers, run alone
  from simulated states, end with related results and in simulated states.
-/

namespace ConsoleCalculator.Base

/-- A sequential program that touches a shared object through atomic operations only. -/
inductive Prog (Op : Type) (Ans : Op → Type) (α : Type) : Type
  | done (a : α)
  | call (o : Op) (k : Ans o → Prog Op Ans α)

variable {Op : Type} {Ans : Op → Type} {α β σ σ' ε η : Type}

namespace Prog

/-- Run `p`, then the program its result selects. -/
def bind : Prog Op Ans α → (α → Prog Op Ans β) → Prog Op Ans β
  | .done a, f => f a
  | .call o k, f => .call o fun r => (k r).bind f

/-- Run `p` alone, without choices of the environment. -/
def eval (exec : σ → (o : Op) → σ × Ans o) : Prog Op Ans α → σ → σ × α
  | .done a, s => (s, a)
  | .call o k, s => (k (exec s o).2).eval exec (exec s o).1

theorem eval_bind {exec : σ → (o : Op) → σ × Ans o} {f : α → Prog Op Ans β} (p : Prog Op Ans α) :
    ∀ s, (p.bind f).eval exec s = (f (p.eval exec s).2).eval exec (p.eval exec s).1 := by
  induction p with
  | done a => exact fun _ => rfl
  | call o k ih => exact fun s => ih _ _

/-- Whenever `p` issues an operation in a state satisfying `I`, under a choice `A` allows, `I`
holds after it; and every result of `p` satisfies `Q`. -/
def Sat (exec : ε → σ → (o : Op) → σ × Ans o) (A : ε → σ → Op → Prop) (I : σ → Prop)
    (Q : α → Prop) : Prog Op Ans α → Prop
  | .done a => Q a
  | .call o k => ∀ e s, A e s o → I s →
      I (exec e s o).1 ∧ (k (exec e s o).2).Sat exec A I Q

/-- The program issues at most `n` operations. -/
def EndsWithin : ℕ → Prog Op Ans α → Prop
  | _, .done _ => True
  | 0, .call _ _ => False
  | n + 1, .call _ k => ∀ r, (k r).EndsWithin n

theorem endsWithin_mono {n m : ℕ} (hnm : n ≤ m) :
    ∀ {p : Prog Op Ans α}, p.EndsWithin n → p.EndsWithin m := by
  intro p
  induction p generalizing n m with
  | done a => intro _; cases m <;> trivial
  | call o k ih =>
    intro h
    cases n with
    | zero => exact h.elim
    | succ n =>
      cases m with
      | zero => omega
      | succ m => exact fun r => ih r (by omega) (h r)

theorem endsWithin_bind {n m : ℕ} {f : α → Prog Op Ans β} (hf : ∀ a, (f a).EndsWithin m) :
    ∀ {p : Prog Op Ans α}, p.EndsWithin n → (p.bind f).EndsWithin (n + m) := by
  intro p
  induction p generalizing n with
  | done a => intro _; exact endsWithin_mono (by omega) (hf a)
  | call o k ih =>
    intro h
    cases n with
    | zero => exact h.elim
    | succ n =>
      rw [show n + 1 + m = n + m + 1 by omega]
      exact fun r => ih r (h r)

open Classical in
/-- The most operations the program can issue, `0` if there is no bound. -/
noncomputable def depth (p : Prog Op Ans α) : ℕ :=
  if h : ∃ n, p.EndsWithin n then Nat.find h else 0

theorem depth_le {n : ℕ} {p : Prog Op Ans α} (h : p.EndsWithin n) : p.depth ≤ n := by
  classical
  have hsome : ∃ n, p.EndsWithin n := ⟨n, h⟩
  rw [depth, dif_pos hsome]
  exact Nat.find_min' hsome h

/-- Every operation brings a bounded program closer to its end. -/
theorem depth_call {o : Op} {k : Ans o → Prog Op Ans α}
    (h : ∃ n, (Prog.call o k).EndsWithin n) (r : Ans o) : (k r).depth < (Prog.call o k).depth := by
  classical
  have hdepth : (Prog.call o k).depth = Nat.find h := dif_pos h
  have hspec := Nat.find_spec h
  cases hn : Nat.find h with
  | zero =>
    rw [hn] at hspec
    exact hspec.elim
  | succ n =>
    rw [hn] at hspec
    have hk : ∃ m, (k r).EndsWithin m := ⟨n, hspec r⟩
    have hle : (k r).depth ≤ n := by
      rw [depth, dif_pos hk]
      exact Nat.find_min' hk (hspec r)
    omega

section Sat

variable {exec : ε → σ → (o : Op) → σ × Ans o} {A : ε → σ → Op → Prop} {I : σ → Prop}

theorem sat_mono {Q Q' : α → Prop} (hQ : ∀ a, Q a → Q' a) :
    ∀ {p : Prog Op Ans α}, p.Sat exec A I Q → p.Sat exec A I Q'
  | .done _, h => hQ _ h
  | .call _ _, h => fun e s ha hi => ⟨(h e s ha hi).1, sat_mono hQ (h e s ha hi).2⟩

/-- Sequencing: what the first program ends with is what the second may assume. -/
theorem sat_bind {Q : α → Prop} {Q' : β → Prop} {f : α → Prog Op Ans β}
    (hf : ∀ a, Q a → (f a).Sat exec A I Q') :
    ∀ {p : Prog Op Ans α}, p.Sat exec A I Q → (p.bind f).Sat exec A I Q'
  | .done _, h => hf _ h
  | .call _ _, h => fun e s ha hi => ⟨(h e s ha hi).1, sat_bind hf (h e s ha hi).2⟩

/-- A program run alone keeps the invariant and meets its postcondition. -/
theorem eval_sat {exec : σ → (o : Op) → σ × Ans o} {Q : α → Prop} {p : Prog Op Ans α}
    (hp : p.Sat (fun _ : Unit => exec) (fun _ _ _ => True) I Q) :
    ∀ {s : σ}, I s → I (p.eval exec s).1 ∧ Q (p.eval exec s).2 := by
  induction p with
  | done a => exact fun hs => ⟨hs, hp⟩
  | call o k ih =>
    intro s hs
    obtain ⟨hI, hk⟩ := hp () s trivial hs
    exact ih _ hk hI

end Sat

/-- Two programs that issue the same operations and go on alike on related answers. -/
inductive Related (R : (o : Op) → Ans o → Ans o → Prop) (Q : α → β → Prop) :
    Prog Op Ans α → Prog Op Ans β → Prop
  | done {a : α} {b : β} (h : Q a b) : Related R Q (.done a) (.done b)
  | call {o : Op} {k : Ans o → Prog Op Ans α} {k' : Ans o → Prog Op Ans β}
      (h : ∀ x y, R o x y → Related R Q (k x) (k' y)) : Related R Q (.call o k) (.call o k')

theorem related_bind {γ δ : Type} {R : (o : Op) → Ans o → Ans o → Prop} {Q : α → β → Prop}
    {Q' : γ → δ → Prop} {p : Prog Op Ans α} {q : Prog Op Ans β} {f : α → Prog Op Ans γ}
    {g : β → Prog Op Ans δ} (h : Related R Q p q)
    (hf : ∀ a b, Q a b → Related R Q' (f a) (g b)) : Related R Q' (p.bind f) (q.bind g) := by
  induction h with
  | done h => exact hf _ _ h
  | call _ ih => exact .call fun x y hr => ih x y hr

/-- **Related programs from simulated states** end with related results, in simulated states. -/
theorem eval_related {exec : σ → (o : Op) → σ × Ans o} {exec' : σ' → (o : Op) → σ' × Ans o}
    {R : (o : Op) → Ans o → Ans o → Prop} {Q : α → β → Prop} {S : σ → σ' → Prop}
    (hS : ∀ s s' o, S s s' → R o (exec s o).2 (exec' s' o).2 ∧ S (exec s o).1 (exec' s' o).1)
    {p : Prog Op Ans α} {q : Prog Op Ans β} (h : Related R Q p q) :
    ∀ {s : σ} {s' : σ'}, S s s' →
      Q (p.eval exec s).2 (q.eval exec' s').2 ∧ S (p.eval exec s).1 (q.eval exec' s').1 := by
  induction h with
  | done h => exact fun hs => ⟨h, hs⟩
  | call _ ih =>
    intro s s' hs
    obtain ⟨hr, hn⟩ := hS s s' _ hs
    exact ih _ _ hr hn

end Prog

/-- One step of a system: thread `i` issues its next operation under the choice `e`, or the
event `x` happens to the shared object. -/
inductive Move (ε η : Type) : Type
  | thread (i : ℕ) (e : ε)
  | event (x : η)

/-- The shared object and what is left of every thread's program. -/
structure Pool (σ Op : Type) (Ans : Op → Type) (α : Type) where
  shared : σ
  threads : List (Prog Op Ans α)

namespace Pool

/-- One move. A thread that has ended, or does not exist, does nothing. -/
def step (exec : ε → σ → (o : Op) → σ × Ans o) (env : η → σ → σ) (p : Pool σ Op Ans α) :
    Move ε η → Pool σ Op Ans α
  | .thread i e =>
    match p.threads[i]? with
    | some (.call o k) =>
      { shared := (exec e p.shared o).1
        threads := p.threads.set i (k (exec e p.shared o).2) }
    | _ => p
  | .event x => { p with shared := env x p.shared }

/-- A run: the moves in order. -/
def run (exec : ε → σ → (o : Op) → σ × Ans o) (env : η → σ → σ) (p : Pool σ Op Ans α)
    (ms : List (Move ε η)) : Pool σ Op Ans α :=
  ms.foldl (step exec env) p

/-- What thread `i` has ended with, if it has ended. -/
def result (p : Pool σ Op Ans α) (i : ℕ) : Option α :=
  match p.threads[i]? with
  | some (.done a) => some a
  | _ => none

/-- The choice a move makes is one that `A` allows in the state it is made in. -/
def Admits (A : ε → σ → Op → Prop) (p : Pool σ Op Ans α) : Move ε η → Prop
  | .thread i e => ∀ o k, p.threads[i]? = some (.call o k) → A e p.shared o
  | .event _ => True

/-- Every move of the run is admissible where it is made. -/
def RunAdmits (exec : ε → σ → (o : Op) → σ × Ans o) (env : η → σ → σ) (A : ε → σ → Op → Prop) :
    Pool σ Op Ans α → List (Move ε η) → Prop
  | _, [] => True
  | p, m :: ms => p.Admits A m ∧ RunAdmits exec env A (p.step exec env m) ms

section Run

variable {exec : ε → σ → (o : Op) → σ × Ans o} {env : η → σ → σ} {A : ε → σ → Op → Prop}
  {I : σ → Prop} {Q : ℕ → α → Prop}

/-- The invariant holds, and every thread will keep it and meet its own postcondition. -/
def Good (exec : ε → σ → (o : Op) → σ × Ans o) (A : ε → σ → Op → Prop) (I : σ → Prop)
    (Q : ℕ → α → Prop) (p : Pool σ Op Ans α) : Prop :=
  I p.shared ∧ ∀ (i : ℕ) (t : Prog Op Ans α), p.threads[i]? = some t → t.Sat exec A I (Q i)

theorem step_call {p : Pool σ Op Ans α} {i : ℕ} {e : ε} {o : Op} {k : Ans o → Prog Op Ans α}
    (hi : p.threads[i]? = some (.call o k)) :
    p.step exec env (.thread i e) =
      ⟨(exec e p.shared o).1, p.threads.set i (k (exec e p.shared o).2)⟩ := by
  simp only [step, hi]

theorem step_idle {p : Pool σ Op Ans α} {i : ℕ} {e : ε}
    (hi : ∀ o k, p.threads[i]? ≠ some (.call o k)) : p.step exec env (.thread i e) = p := by
  show (match p.threads[i]? with
    | some (.call o k) => ⟨(exec e p.shared o).1, p.threads.set i (k (exec e p.shared o).2)⟩
    | _ => p) = p
  split
  · rename_i o k h
    exact absurd h (hi o k)
  · rfl

/-- A thread that has ended meets its postcondition. -/
theorem Good.result_sat {p : Pool σ Op Ans α} (h : p.Good exec A I Q) {i : ℕ} {a : α}
    (hr : p.result i = some a) : Q i a := by
  unfold result at hr
  split at hr
  · rename_i b hi
    obtain rfl := Option.some.inj hr
    exact h.2 i _ hi
  · exact absurd hr (by simp)

theorem step_good (henv : ∀ x s, I s → I (env x s)) {p : Pool σ Op Ans α}
    (h : p.Good exec A I Q) (m : Move ε η) (hm : p.Admits A m) :
    (p.step exec env m).Good exec A I Q := by
  obtain ⟨hI, hT⟩ := h
  cases m with
  | event x => exact ⟨henv x _ hI, hT⟩
  | thread i e =>
    by_cases hc : ∃ o k, p.threads[i]? = some (.call o k)
    · obtain ⟨o, k, hi⟩ := hc
      obtain ⟨hI', hk⟩ := hT i _ hi e p.shared (hm o k hi) hI
      rw [step_call hi]
      refine ⟨hI', fun j t ht => ?_⟩
      rw [List.getElem?_set] at ht
      split at ht
      · rename_i hij
        split at ht
        · obtain rfl := Option.some.inj ht
          exact hij ▸ hk
        · exact absurd ht (by simp)
      · exact hT j t ht
    · rw [step_idle fun o k hi => hc ⟨o, k, hi⟩]
      exact ⟨hI, hT⟩

/-- **The interleaving rule.** Along every admissible run the invariant holds and the ended
threads meet their postconditions. -/
theorem run_sat (henv : ∀ x s, I s → I (env x s)) :
    ∀ (ms : List (Move ε η)) {p : Pool σ Op Ans α}, p.Good exec A I Q →
      RunAdmits exec env A p ms → (p.run exec env ms).Good exec A I Q
  | [], _, h, _ => h
  | m :: ms, _, h, hm => run_sat henv ms (step_good henv h m hm.1) hm.2

/-- How often a run gives thread `i` the turn. -/
def turns (i : ℕ) : List (Move ε η) → ℕ
  | [] => 0
  | .thread j _ :: ms => (if j = i then 1 else 0) + turns i ms
  | .event _ :: ms => turns i ms

/-- A step touches the program of the thread that moves only. -/
theorem step_threads (p : Pool σ Op Ans α) (m : Move ε η) {i : ℕ}
    (hi : ∀ e, m ≠ .thread i e) : (p.step exec env m).threads[i]? = p.threads[i]? := by
  cases m with
  | event x => rfl
  | thread j e =>
    have hji : j ≠ i := by
      rintro rfl
      exact hi e rfl
    by_cases hc : ∃ o k, p.threads[j]? = some (.call o k)
    · obtain ⟨o, k, hj⟩ := hc
      rw [step_call hj, List.getElem?_set_ne hji]
    · rw [step_idle fun o k hj => hc ⟨o, k, hj⟩]

/-- **A thread that issues at most `n` operations has ended** once it had `n` turns. -/
theorem run_ends {i : ℕ} : ∀ (ms : List (Move ε η)) {n : ℕ} {p : Pool σ Op Ans α}
    {t : Prog Op Ans α}, p.threads[i]? = some t → t.EndsWithin n → n ≤ turns i ms →
    ∃ a, (p.run exec env ms).result i = some a
  | [], n, p, t, ht, hn, hms => by
    cases t with
    | done a => exact ⟨a, by simp [run, result, ht]⟩
    | call o k =>
      cases n with
      | zero => exact hn.elim
      | succ n => exact absurd hms (by simp [turns])
  | m :: ms, n, p, t, ht, hn, hms => by
    show ∃ a, ((p.step exec env m).run exec env ms).result i = some a
    by_cases hm : ∃ e, m = .thread i e
    · obtain ⟨e, rfl⟩ := hm
      simp only [turns, if_true] at hms
      cases t with
      | done a =>
        rw [step_idle fun o k hk => by rw [ht] at hk; exact absurd hk (by simp)]
        exact run_ends ms ht (n := 0) trivial (Nat.zero_le _)
      | call o k =>
        cases n with
        | zero => exact hn.elim
        | succ n =>
          have hlt : i < p.threads.length := (List.getElem?_eq_some_iff.mp ht).1
          refine run_ends ms (t := k (exec e p.shared o).2) ?_ (hn _) (by omega)
          rw [step_call ht, List.getElem?_set_self hlt]
    · have hstep : (p.step exec env m).threads[i]? = p.threads[i]? :=
        step_threads p m fun e he => hm ⟨e, he⟩
      refine run_ends ms (hstep.trans ht) hn ?_
      cases m with
      | event x => exact hms
      | thread j e =>
        have hji : j ≠ i := fun h => hm ⟨e, h ▸ rfl⟩
        simpa [turns, hji] using hms

/-- A run whose choices are allowed in every state is admissible. -/
theorem runAdmits_of_forall {C : ε → Prop} (hA : ∀ e s o, C e → A e s o) :
    ∀ (ms : List (Move ε η)) (p : Pool σ Op Ans α), (∀ i e, Move.thread i e ∈ ms → C e) →
      RunAdmits exec env A p ms
  | [], _, _ => trivial
  | m :: ms, p, h => by
    refine ⟨?_, runAdmits_of_forall hA ms _ fun i e he => h i e (List.mem_cons_of_mem m he)⟩
    cases m with
    | event x => trivial
    | thread i e => exact fun o k _ => hA e _ o (h i e List.mem_cons_self)

end Run

end Pool

end ConsoleCalculator.Base
