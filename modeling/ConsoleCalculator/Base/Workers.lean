import ConsoleCalculator.Base.Rely
import ConsoleCalculator.Base.Simulation
import Mathlib.Data.List.Perm.Basic

/-!
# Workers that serve calls on a shared object

A server seen from its calls. A free worker takes a call and gets the program to run for it; it
issues the program's operations on the shared object one at a time, between those of the other
workers, and when the program has ended it gives the answer and is free again. Calls are numbered in
the order they are taken. Workers can be added, and events outside the workers can happen to the
object; which of these is next is up to the run.

Results:
* `step_cases`: what a step can do.
* **`accounted_run`**: every call that was taken is being worked on by one worker or has been
  answered, not both, and neither twice.
* `number_silent`: a worker keeps its call until it has answered it.
* **`keeps_run`**: if every program relies on `R` and ends with `Q`, then `Q` holds of every answer
  given, from then on.
* **`alike_run`**: workers on an object that answers alike do and answer the same.
-/

namespace ConsoleCalculator.Base

/-- The shared object, the program each worker has left with the number of its call (`none` when it
is free), the calls taken so far, and the answers given so far with the numbers of their calls. -/
structure Workers (σ Op : Type) (Ans : Op → Type) (κ α : Type) where
  shared : σ
  workers : List (Option (ℕ × Prog Op Ans α))
  taken : List κ
  answered : List (ℕ × α)

/-- What can happen: `e : ε` is a choice of the environment for one operation, `x : η` an event
outside the workers. -/
inductive WorkEvent (κ ε η : Type) : Type
  | hire
  | take (i : ℕ) (c : κ)
  | issue (i : ℕ) (e : ε)
  | finish (i : ℕ)
  | event (x : η)

variable {σ Op κ α ε η : Type} {Ans : Op → Type}

/-- The call an event takes. -/
def WorkEvent.call : WorkEvent κ ε η → Option κ
  | .take _ c => some c
  | _ => none

/-- The event takes or answers no call. -/
def WorkEvent.Silent : WorkEvent κ ε η → Prop
  | .take _ _ => False
  | .finish _ => False
  | _ => True

namespace Workers

/-- No worker yet. -/
def start (s : σ) : Workers σ Op Ans κ α := ⟨s, [], [], []⟩

section Step

variable (program : κ → Prog Op Ans α) (exec : ε → σ → (o : Op) → σ × Ans o) (env : η → σ → σ)

/-- One step, `none` if it cannot happen. -/
def step (w : Workers σ Op Ans κ α) : WorkEvent κ ε η → Option (Workers σ Op Ans κ α)
  | .hire => some { w with workers := w.workers ++ [none] }
  | .take i c =>
    match w.workers[i]? with
    | some none =>
      some { w with
        workers := w.workers.set i (some (w.taken.length, program c))
        taken := w.taken ++ [c] }
    | _ => none
  | .issue i e =>
    match w.workers[i]? with
    | some (some (k, .call o rest)) =>
      some { w with
        shared := (exec e w.shared o).1
        workers := w.workers.set i (some (k, rest (exec e w.shared o).2)) }
    | _ => none
  | .finish i =>
    match w.workers[i]? with
    | some (some (k, .done a)) =>
      some { w with workers := w.workers.set i none, answered := w.answered ++ [(k, a)] }
    | _ => none
  | .event x => some { w with shared := env x w.shared }

/-- A run from `w`. -/
def run (w : Workers σ Op Ans κ α) (es : List (WorkEvent κ ε η)) :
    Option (Workers σ Op Ans κ α) :=
  runSteps (step program exec env) w es

/-- The steps, with what must hold for them: the inversion of `step`. -/
inductive Step (w : Workers σ Op Ans κ α) : WorkEvent κ ε η → Workers σ Op Ans κ α → Prop
  | hired : Step w .hire { w with workers := w.workers ++ [none] }
  | took (i : ℕ) (c : κ) (hi : w.workers[i]? = some none) :
      Step w (.take i c)
        { w with
          workers := w.workers.set i (some (w.taken.length, program c))
          taken := w.taken ++ [c] }
  | issued (i : ℕ) (e : ε) (k : ℕ) (o : Op) (rest : Ans o → Prog Op Ans α)
      (hi : w.workers[i]? = some (some (k, .call o rest))) :
      Step w (.issue i e)
        { w with
          shared := (exec e w.shared o).1
          workers := w.workers.set i (some (k, rest (exec e w.shared o).2)) }
  | finished (i k : ℕ) (a : α) (hi : w.workers[i]? = some (some (k, .done a))) :
      Step w (.finish i)
        { w with workers := w.workers.set i none, answered := w.answered ++ [(k, a)] }
  | happened (x : η) : Step w (.event x) { w with shared := env x w.shared }

end Step

section Runs

variable {program : κ → Prog Op Ans α} {exec : ε → σ → (o : Op) → σ × Ans o} {env : η → σ → σ}
  {w w' : Workers σ Op Ans κ α} {e : WorkEvent κ ε η}

theorem step_cases (h : w.step program exec env e = some w') : Step program exec env w e w' := by
  cases e with
  | hire =>
    obtain rfl := Option.some.inj h
    exact .hired
  | take i c =>
    simp only [step] at h
    split at h
    · rename_i hi
      obtain rfl := Option.some.inj h
      exact .took i c hi
    · cases h
  | issue i e =>
    simp only [step] at h
    split at h
    · rename_i k o rest hi
      obtain rfl := Option.some.inj h
      exact .issued i e k o rest hi
    · cases h
  | finish i =>
    simp only [step] at h
    split at h
    · rename_i k a hi
      obtain rfl := Option.some.inj h
      exact .finished i k a hi
    · cases h
  | event x =>
    obtain rfl := Option.some.inj h
    exact .happened x

/-! ## Accounts -/

/-- The calls being worked on. -/
def inProgress (w : Workers σ Op Ans κ α) : List ℕ := w.workers.filterMap (Option.map Prod.fst)

/-- Every call taken is being worked on or has been answered, once. -/
def Accounted (w : Workers σ Op Ans κ α) : Prop :=
  (w.inProgress ++ w.answered.map Prod.fst).Perm (List.range w.taken.length)

theorem getElem?_append_of_some {β : Type} {l : List β} {k : ℕ} {b : β} (h : l[k]? = some b)
    (more : List β) : (l ++ more)[k]? = some b := by
  rw [List.getElem?_append_left (List.getElem?_eq_some_iff.mp h).1]
  exact h

/-- Replacing one entry of a list replaces what it contributes to a concatenation. -/
theorem flatMap_set_perm {β γ : Type} (f : β → List γ) (b' : β) :
    ∀ {l : List β} {i : ℕ} {b : β}, l[i]? = some b →
      (f b ++ (l.set i b').flatMap f).Perm (f b' ++ l.flatMap f)
  | a :: l, 0, b, h => by
    obtain rfl := Option.some.inj h
    rw [List.set_cons_zero, List.flatMap_cons, List.flatMap_cons]
    exact List.perm_append_comm_assoc _ _ _
  | a :: l, i + 1, b, h => by
    have hrest := flatMap_set_perm f b' (l := l) (i := i) (b := b) h
    rw [List.set_cons_succ, List.flatMap_cons, List.flatMap_cons]
    calc
      List.Perm (f b ++ (f a ++ (l.set i b').flatMap f)) (f a ++ (f b ++ (l.set i b').flatMap f)) :=
        List.perm_append_comm_assoc _ _ _
      List.Perm _ (f a ++ (f b' ++ l.flatMap f)) := hrest.append_left _
      List.Perm _ (f b' ++ (f a ++ l.flatMap f)) := List.perm_append_comm_assoc _ _ _

/-- It replaces at most one entry of what is filtered out of the list. -/
theorem filterMap_set_perm {β γ : Type} (f : β → Option γ) (b' : β) {l : List β} {i : ℕ} {b : β}
    (h : l[i]? = some b) :
    ((f b).toList ++ (l.set i b').filterMap f).Perm ((f b').toList ++ l.filterMap f) := by
  rw [List.filterMap_eq_flatMap_toList, List.filterMap_eq_flatMap_toList]
  exact flatMap_set_perm (fun b => (f b).toList) b' h

theorem accounted_start (s : σ) : Accounted (start s : Workers σ Op Ans κ α) :=
  List.Perm.refl _

theorem accounted_step (h : Accounted w) (hstep : w.step program exec env e = some w') :
    Accounted w' := by
  unfold Accounted inProgress at h ⊢
  cases step_cases hstep with
  | hired => simpa using h
  | happened x => exact h
  | took i c hi =>
    have hset := filterMap_set_perm (Option.map Prod.fst)
      (some (w.taken.length, program c)) hi
    simp only [Option.map_none, Option.toList_none, List.nil_append, Option.map_some,
      Option.toList_some] at hset
    rw [List.length_append, List.length_singleton, List.range_succ]
    exact ((hset.append_right _).trans (h.cons _)).trans (List.perm_append_singleton _ _).symm
  | issued i e k o rest hi =>
    have hset := filterMap_set_perm (Option.map Prod.fst)
      (some (k, rest (exec e w.shared o).2)) hi
    exact (((List.perm_cons k).mp hset).append_right _).trans h
  | finished i k a hi =>
    have hset := filterMap_set_perm (Option.map Prod.fst) none hi
    simp only [Option.map_none, Option.toList_none, List.nil_append, Option.map_some,
      Option.toList_some] at hset
    rw [List.map_append, ← List.append_assoc]
    refine List.perm_append_comm.trans (List.Perm.trans ?_ h)
    exact hset.append_right _

/-- **No call is lost, and none is answered twice.** -/
theorem accounted_run {es : List (WorkEvent κ ε η)} (h : Accounted w)
    (hrun : w.run program exec env es = some w') : Accounted w' :=
  runSteps_invariant (fun _ _ _ => accounted_step) es h hrun

/-- The calls taken are those of the events. -/
theorem taken_run : ∀ {es : List (WorkEvent κ ε η)} {w : Workers σ Op Ans κ α},
    w.run program exec env es = some w' → w'.taken = w.taken ++ es.filterMap WorkEvent.call
  | [], w, hrun => by
    obtain rfl := Option.some.inj hrun
    simp
  | e :: es, w, hrun => by
    obtain ⟨u, hu, hrest⟩ := runSteps_cons hrun
    have hstep : u.taken = w.taken ++ e.call.toList := by
      cases step_cases hu with
      | hired | issued | finished | happened => exact (List.append_nil _).symm
      | took => rfl
    rw [taken_run hrest, hstep, List.append_assoc]
    cases he : e.call <;> simp [he]

/-! ## Which call a worker has -/

/-- The number of the call that worker `i` is working on. -/
def number (w : Workers σ Op Ans κ α) (i : ℕ) : Option ℕ := (w.workers[i]?).join.map Prod.fst

theorem number_eq_some {i k : ℕ} :
    w.number i = some k ↔ ∃ p, w.workers[i]? = some (some (k, p)) := by
  unfold number
  constructor
  · intro h
    obtain ⟨⟨k', p⟩, hp, rfl⟩ := Option.map_eq_some_iff.mp h
    exact ⟨p, Option.join_eq_some_iff.mp hp⟩
  · rintro ⟨p, hp⟩
    simp [hp]

/-- Worker `i` gets something else to do. -/
theorem number_set {i : ℕ} {t : Option (ℕ × Prog Op Ans α)} (hi : i < w.workers.length)
    (h : w'.workers = w.workers.set i t) (j : ℕ) :
    w'.number j = if i = j then t.map Prod.fst else w.number j := by
  unfold number
  rw [h, List.getElem?_set]
  by_cases hij : i = j
  · simp [hij, hij ▸ hi]
  · simp [hij]

/-- A silent step leaves each worker its call. -/
theorem number_silent (he : e.Silent) (hstep : w.step program exec env e = some w') :
    (∀ i, w'.number i = w.number i) ∧ w'.taken = w.taken ∧ w'.answered = w.answered := by
  cases step_cases hstep with
  | took | finished => exact he.elim
  | happened x => exact ⟨fun _ => rfl, rfl, rfl⟩
  | hired =>
    refine ⟨fun i => ?_, rfl, rfl⟩
    unfold number
    rw [List.getElem?_append]
    split
    · rfl
    · rename_i hi
      rw [List.getElem?_eq_none (Nat.not_lt.mp hi)]
      cases i - w.workers.length <;> rfl
  | issued i e k o rest hi =>
    refine ⟨fun j => ?_, rfl, rfl⟩
    rw [number_set (List.getElem?_eq_some_iff.mp hi).1 rfl]
    split
    · rename_i hij
      subst hij
      exact (number_eq_some.mpr ⟨_, hi⟩).symm
    · rfl

/-- A free worker takes a call. -/
theorem number_take {i : ℕ} {c : κ} (hstep : w.step program exec env (.take i c) = some w') :
    w.number i = none ∧ (∀ j, w'.number j = if i = j then some w.taken.length else w.number j) ∧
      w'.taken = w.taken ++ [c] ∧ w'.answered = w.answered := by
  cases step_cases hstep with
  | took _ _ hi =>
    refine ⟨by simp [number, hi], fun j => ?_, rfl, rfl⟩
    exact number_set (t := some (w.taken.length, program c)) (List.getElem?_eq_some_iff.mp hi).1
      rfl j

/-- A worker answers its call. -/
theorem number_finish {i : ℕ} (hstep : w.step program exec env (.finish i) = some w') :
    ∃ k a, w.workers[i]? = some (some (k, .done a)) ∧
      (∀ j, w'.number j = if i = j then none else w.number j) ∧ w'.taken = w.taken ∧
      w'.answered = w.answered ++ [(k, a)] := by
  cases step_cases hstep with
  | finished _ k a hi =>
    refine ⟨k, a, hi, fun j => ?_, rfl, rfl⟩
    exact number_set (t := none) (List.getElem?_eq_some_iff.mp hi).1 rfl j

/-! ## What the answers say -/

variable {A : ε → σ → Op → Prop} {B : η → σ → Prop} {C : κ → σ → Prop} {R : σ → σ → Prop}
  {Q : ℕ → κ → σ → α → Prop} {s₀ : σ} {n₀ : ℕ}

/-- The choice of an operation, the event or the call is one that `A`, `B` or `C` allows where it is
made. -/
def Allows (A : ε → σ → Op → Prop) (B : η → σ → Prop) (C : κ → σ → Prop)
    (w : Workers σ Op Ans κ α) : WorkEvent κ ε η → Prop
  | .issue i e => ∀ k o rest, w.workers[i]? = some (some (k, .call o rest)) → A e w.shared o
  | .event x => B x w.shared
  | .take _ c => C c w.shared
  | _ => True

/-- The object is where `R` leads from `s₀`, the workers will keep within `R` and answer `Q`, and
the answers given satisfy it for good. -/
structure Keeps (exec : ε → σ → (o : Op) → σ × Ans o) (A : ε → σ → Op → Prop) (R : σ → σ → Prop)
    (Q : ℕ → κ → σ → α → Prop) (s₀ : σ) (w : Workers σ Op Ans κ α) : Prop where
  shared : R s₀ w.shared
  working : ∀ (i k : ℕ) (p : Prog Op Ans α), w.workers[i]? = some (some (k, p)) →
    ∃ c, w.taken[k]? = some c ∧ p.Relies exec A R (Q k c) w.shared
  answered : ∀ k a, (k, a) ∈ w.answered →
    ∃ c, w.taken[k]? = some c ∧ ∀ s, R w.shared s → Q k c s a

theorem keeps_start (hrefl : ∀ s, R s s) (s : σ) :
    Keeps exec A R Q s (start s : Workers σ Op Ans κ α) where
  shared := hrefl s
  working i k p h := by simp [start] at h
  answered k a h := absurd h List.not_mem_nil

/-- One step: the worker that moves gets on with its program, and for the others it is
interference. -/
theorem keeps_step (hrefl : ∀ s, R s s) (htrans : ∀ s t u, R s t → R t u → R s u)
    (henv : ∀ x s, B x s → R s (env x s))
    (hnew : ∀ k c s, n₀ ≤ k → R s₀ s → C c s → (program c).Relies exec A R (Q k c) s)
    (h : Keeps exec A R Q s₀ w) (hn : n₀ ≤ w.taken.length) (hallow : w.Allows A B C e)
    (hstep : w.step program exec env e = some w') :
    Keeps exec A R Q s₀ w' ∧ n₀ ≤ w'.taken.length := by
  -- the object moves within `R`, and one worker at most gets another program
  have hmove : ∀ {s : σ}, R w.shared s → ∀ {i : ℕ} {t : Option (ℕ × Prog Op Ans α)},
      (∀ k p, t = some (k, p) → ∃ c, w.taken[k]? = some c ∧ p.Relies exec A R (Q k c) s) →
      Keeps exec A R Q s₀ { w with shared := s, workers := w.workers.set i t } := by
    intro s hs i t ht
    refine ⟨htrans _ _ _ h.shared hs, fun j k p hj => ?_, fun k a hk => ?_⟩
    · rw [List.getElem?_set] at hj
      split at hj
      · split at hj
        · exact ht k p (Option.some.inj hj)
        · cases hj
      · obtain ⟨c, hc, hp⟩ := h.working j k p hj
        exact ⟨c, hc, hp.later htrans hs⟩
    · obtain ⟨c, hc, hQ⟩ := h.answered k a hk
      exact ⟨c, hc, fun u hu => hQ u (htrans _ _ _ hs hu)⟩
  cases step_cases hstep with
  | hired =>
    refine ⟨⟨h.shared, fun j k p hj => ?_, h.answered⟩, hn⟩
    rw [List.getElem?_append] at hj
    split at hj
    · exact h.working j k p hj
    · have hmem := List.mem_singleton.mp (List.mem_of_getElem? hj)
      cases hmem
  | happened x =>
    have hs := henv x w.shared hallow
    refine ⟨⟨htrans _ _ _ h.shared hs, fun j k p hj => ?_, fun k a hk => ?_⟩, hn⟩
    · obtain ⟨c, hc, hp⟩ := h.working j k p hj
      exact ⟨c, hc, hp.later htrans hs⟩
    · obtain ⟨c, hc, hQ⟩ := h.answered k a hk
      exact ⟨c, hc, fun u hu => hQ u (htrans _ _ _ hs hu)⟩
  | took i c hi =>
    refine ⟨⟨h.shared, fun j k p hj => ?_, fun k a hk => ?_⟩, ?_⟩
    · rw [List.getElem?_set] at hj
      split at hj
      · split at hj
        · obtain ⟨rfl, rfl⟩ := Prod.mk.inj (Option.some.inj (Option.some.inj hj))
          exact ⟨c, by simp, hnew _ c _ hn h.shared hallow⟩
        · cases hj
      · obtain ⟨c', hc', hp⟩ := h.working j k p hj
        exact ⟨c', getElem?_append_of_some hc' [c], hp⟩
    · obtain ⟨c', hc', hQ⟩ := h.answered k a hk
      exact ⟨c', getElem?_append_of_some hc' [c], hQ⟩
    · show n₀ ≤ (w.taken ++ [c]).length
      rw [List.length_append]
      omega
  | issued i e k o rest hi =>
    obtain ⟨c, hc, hp⟩ := h.working i k _ hi
    obtain ⟨hR, hrest⟩ := hp e w.shared (hrefl _) (hallow k o rest hi)
    refine ⟨hmove hR fun k' p hk => ?_, hn⟩
    obtain ⟨rfl, rfl⟩ := Prod.mk.inj (Option.some.inj hk)
    exact ⟨c, hc, hrest⟩
  | finished i k a hi =>
    obtain ⟨c, hc, hp⟩ := h.working i k _ hi
    have hset := hmove (hrefl w.shared) (i := i) (t := none) fun _ _ hk => by cases hk
    refine ⟨⟨hset.shared, hset.working, fun k' a' hk => ?_⟩, hn⟩
    rcases List.mem_append.mp hk with hk | hk
    · exact h.answered k' a' hk
    · obtain ⟨rfl, rfl⟩ := Prod.mk.inj (List.mem_singleton.mp hk)
      exact ⟨c, hc, hp⟩

/-- **What programs end with holds of the answers**, whatever the interleaving. The calls taken from
`w` on are those numbered from `n₀` on. -/
theorem keeps_run (hrefl : ∀ s, R s s) (htrans : ∀ s t u, R s t → R t u → R s u)
    (henv : ∀ x s, B x s → R s (env x s))
    (hnew : ∀ k c s, n₀ ≤ k → R s₀ s → C c s → (program c).Relies exec A R (Q k c) s) :
    ∀ (es : List (WorkEvent κ ε η)) {w w' : Workers σ Op Ans κ α}, Keeps exec A R Q s₀ w →
      n₀ ≤ w.taken.length → Guarded (step program exec env) (Allows A B C) w es →
      w.run program exec env es = some w' → Keeps exec A R Q s₀ w'
  | [], _, _, h, _, _, hrun => Option.some.inj hrun ▸ h
  | _ :: es, _, _, h, hn, hg, hrun => by
    obtain ⟨u, hu, hrest⟩ := runSteps_cons hrun
    obtain ⟨hk, hn'⟩ := keeps_step hrefl htrans henv hnew h hn hg.1 hu
    exact keeps_run hrefl htrans henv hnew es hk hn' (hg.2 u hu) hrest

end Runs

/-! ## Objects that answer alike -/

end Workers

/-- The same event at an object whose operations take their choices through `f`, and which nothing
outside the workers happens to. -/
def WorkEvent.through {ε' : Type} (f : ε → ε') : WorkEvent κ ε η → Option (WorkEvent κ ε' Empty)
  | .hire => some .hire
  | .take i c => some (.take i c)
  | .issue i e => some (.issue i (f e))
  | .finish i => some (.finish i)
  | .event _ => none

namespace Workers

variable {τ ε' : Type}

/-- The workers have the same programs left, and the same calls and answers behind them. -/
structure Alike (w : Workers σ Op Ans κ α) (v : Workers τ Op Ans κ α) : Prop where
  workers : v.workers = w.workers
  taken : v.taken = w.taken
  answered : v.answered = w.answered

section Alike

variable {program : κ → Prog Op Ans α} {exec : ε → σ → (o : Op) → σ × Ans o} {env : η → σ → σ}
  {exec' : ε' → τ → (o : Op) → τ × Ans o} {f : ε → ε'} {A : ε → σ → Op → Prop}
  {B : η → σ → Prop} {C : κ → σ → Prop} {R : σ → τ → Prop}

theorem alike_step
    (hexec : ∀ e s t o, A e s o → R s t →
      (exec' (f e) t o).2 = (exec e s o).2 ∧ R (exec e s o).1 (exec' (f e) t o).1)
    (henv : ∀ x s t, B x s → R s t → R (env x s) t) {w w' : Workers σ Op Ans κ α}
    {v : Workers τ Op Ans κ α} {e : WorkEvent κ ε η} (h : Alike w v) (hR : R w.shared v.shared)
    (hallow : w.Allows A B C e) (hstep : w.step program exec env e = some w') :
    (e.through f = none ∧ Alike w' v ∧ R w'.shared v.shared) ∨
      ∃ a v', e.through f = some a ∧ v.step program exec' (fun x => x.elim) a = some v' ∧
        Alike w' v' ∧ R w'.shared v'.shared := by
  cases step_cases hstep with
  | hired =>
    exact Or.inr ⟨_, _, rfl, rfl, ⟨by rw [h.workers], h.taken, h.answered⟩, hR⟩
  | took i c hi =>
    refine Or.inr ⟨_, { v with
      workers := w.workers.set i (some (w.taken.length, program c)), taken := w.taken ++ [c] },
      rfl, ?_, ⟨rfl, rfl, h.answered⟩, hR⟩
    simp only [step, h.workers, h.taken, hi]
  | issued i e k o rest hi =>
    obtain ⟨hans, hR'⟩ := hexec e w.shared v.shared o (hallow k o rest hi) hR
    refine Or.inr ⟨_, { v with
      shared := (exec' (f e) v.shared o).1
      workers := w.workers.set i (some (k, rest (exec e w.shared o).2)) },
      rfl, ?_, ⟨rfl, h.taken, h.answered⟩, hR'⟩
    simp only [step, h.workers, hi, hans]
  | finished i k a hi =>
    refine Or.inr ⟨_, { v with
      workers := w.workers.set i none, answered := w.answered ++ [(k, a)] },
      rfl, ?_, ⟨rfl, h.taken, rfl⟩, hR⟩
    simp only [step, h.workers, h.answered, hi]
  | happened x => exact Or.inl ⟨rfl, ⟨h.workers, h.taken, h.answered⟩, henv x _ _ hallow hR⟩

/-- **Workers cannot tell objects apart that answer alike.** -/
theorem alike_run
    (hexec : ∀ e s t o, A e s o → R s t →
      (exec' (f e) t o).2 = (exec e s o).2 ∧ R (exec e s o).1 (exec' (f e) t o).1)
    (henv : ∀ x s t, B x s → R s t → R (env x s) t) {w w' : Workers σ Op Ans κ α}
    {v : Workers τ Op Ans κ α} {es : List (WorkEvent κ ε η)} (h : Alike w v)
    (hR : R w.shared v.shared) (hg : Guarded (step program exec env) (Allows A B C) w es)
    (hrun : w.run program exec env es = some w') :
    ∃ v', v.run program exec' (fun x => x.elim) (es.filterMap (WorkEvent.through f)) = some v' ∧
      Alike w' v' ∧ R w'.shared v'.shared := by
  rw [← trace_eq_filterMap hrun]
  exact run_guarded (R := fun w v => Alike w v ∧ R w.shared v.shared)
    (fun h hallow hstep => alike_step hexec henv h.1 h.2 hallow hstep) es ⟨h, hR⟩ hg hrun

end Alike

end Workers

end ConsoleCalculator.Base
