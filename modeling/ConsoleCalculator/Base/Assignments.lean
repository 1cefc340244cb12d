import Mathlib.Logic.Function.Basic
import Mathlib.Data.List.Basic

/-!
# Assignments, one after the other

A store has a value for every key. An assignment gives a key a raw text; `read` makes a value of it
or rejects it, and the first assignment that is rejected ends the sequence.

* `givenFor as k` is what the assignments `as` give for `k`, in order.
* `Assigns` connects a program on some state to such a sequence: seen through `view`, the program
  carries it out.

Results:
* **`assignAll_eq_none_iff`**: a sequence fails iff it has an assignment that is rejected, also one
  that a later assignment to its key would have replaced.
* **`assignAll_eq_some`**: otherwise the last assignment to a key counts, key by key.
* **`assignAll_congr`**: so the result depends only on what is given for each key.
* `Assigns.bind`, `assigns_foldlM`: programs that carry out one sequence after another.
-/

namespace ConsoleCalculator.Base

variable {κ ρ V : Type} [DecidableEq κ]

/-- The assignments in order, each replacing the value of its key. -/
def assignAll (read : κ → ρ → Option V) : (κ → V) → List (κ × ρ) → Option (κ → V)
  | f, [] => some f
  | f, a :: as => (read a.1 a.2).bind fun v => assignAll read (Function.update f a.1 v) as

/-- What is given for a key, in order. -/
def givenFor (as : List (κ × ρ)) (k : κ) : List ρ :=
  (as.filter fun a => a.1 = k).map Prod.snd

theorem mem_givenFor {as : List (κ × ρ)} {k : κ} {r : ρ} : r ∈ givenFor as k ↔ (k, r) ∈ as := by
  simp [givenFor]

@[simp] theorem givenFor_nil (k : κ) : givenFor ([] : List (κ × ρ)) k = [] := rfl

theorem givenFor_cons (a : κ × ρ) (as : List (κ × ρ)) (k : κ) :
    givenFor (a :: as) k = if a.1 = k then a.2 :: givenFor as k else givenFor as k := by
  by_cases h : a.1 = k
  · simp [givenFor, h]
  · simp [givenFor, h]

theorem givenFor_append (as bs : List (κ × ρ)) (k : κ) :
    givenFor (as ++ bs) k = givenFor as k ++ givenFor bs k := by
  simp [givenFor]

/-- One optional assignment for each of some keys. -/
theorem givenFor_flatMap (g : κ → Option ρ) (k : κ) {ks : List κ} (hks : ks.Nodup) :
    givenFor (ks.flatMap fun k => (g k).toList.map (k, ·)) k =
      if k ∈ ks then (g k).toList else [] := by
  induction ks with
  | nil => simp
  | cons k' ks ih =>
    obtain ⟨hnot, hks⟩ := List.nodup_cons.mp hks
    have hhead : givenFor ((g k').toList.map (k', ·)) k = if k' = k then (g k').toList else [] := by
      cases g k' <;> simp [givenFor_cons]
    rw [List.flatMap_cons, givenFor_append, hhead, ih hks]
    by_cases hk : k' = k
    · subst hk
      simp [hnot]
    · simp [hk, Ne.symm hk]

section

variable {read : κ → ρ → Option V}

theorem assignAll_append (f : κ → V) : ∀ (as bs : List (κ × ρ)),
    assignAll read f (as ++ bs) = (assignAll read f as).bind fun g => assignAll read g bs
  | [], _ => rfl
  | a :: as, bs => by
    rw [List.cons_append, assignAll, assignAll, Option.bind_assoc]
    congr 1
    funext v
    exact assignAll_append _ as bs

/-- **A sequence fails iff some assignment is rejected.** -/
theorem assignAll_eq_none_iff {as : List (κ × ρ)} {f : κ → V} :
    assignAll read f as = none ↔ ∃ a ∈ as, read a.1 a.2 = none := by
  induction as generalizing f with
  | nil => simp [assignAll]
  | cons a as ih =>
    rw [assignAll]
    cases h : read a.1 a.2 with
    | none => simp [h]
    | some v => simp [h, ih]

/-- **The last assignment to a key counts.** -/
theorem assignAll_eq_some {as : List (κ × ρ)} {f g : κ → V} (h : assignAll read f as = some g)
    (k : κ) :
    ((givenFor as k).getLast? = none → g k = f k) ∧
      ∀ r, (givenFor as k).getLast? = some r → read k r = some (g k) := by
  induction as generalizing f with
  | nil =>
    obtain rfl := Option.some.inj h
    simp
  | cons a as ih =>
    obtain ⟨v, hv, hrest⟩ := Option.bind_eq_some_iff.mp h
    obtain ⟨hnone, hsome⟩ := ih hrest
    rw [givenFor_cons]
    by_cases hk : a.1 = k
    · subst hk
      rw [if_pos rfl]
      refine ⟨fun hlast => by simp at hlast, fun r hr => ?_⟩
      cases hlast : (givenFor as a.1).getLast? with
      | none =>
        -- `a` is the last one for its key
        rw [List.getLast?_cons, hlast, Option.getD_none] at hr
        obtain rfl := Option.some.inj hr
        rw [hv, hnone hlast, Function.update_self]
      | some r' =>
        rw [List.getLast?_cons, hlast, Option.getD_some] at hr
        obtain rfl := Option.some.inj hr
        exact hsome r' hlast
    · rw [if_neg hk]
      refine ⟨fun hlast => ?_, hsome⟩
      rw [hnone hlast, Function.update_of_ne (Ne.symm hk)]

/-- **Only what is given for each key matters**, not the order of assignments to different keys. -/
theorem assignAll_congr {as bs : List (κ × ρ)} {f : κ → V}
    (h : ∀ k, givenFor as k = givenFor bs k) : assignAll read f as = assignAll read f bs := by
  have hmem : ∀ a, a ∈ as ↔ a ∈ bs := fun a => by
    rw [← mem_givenFor (k := a.1), ← mem_givenFor (k := a.1), h]
  cases ha : assignAll read f as with
  | none =>
    obtain ⟨a, hin, hread⟩ := assignAll_eq_none_iff.mp ha
    exact (assignAll_eq_none_iff.mpr ⟨a, (hmem a).mp hin, hread⟩).symm
  | some g =>
    cases hb : assignAll read f bs with
    | none =>
      obtain ⟨b, hin, hread⟩ := assignAll_eq_none_iff.mp hb
      rw [assignAll_eq_none_iff.mpr ⟨b, (hmem b).mpr hin, hread⟩] at ha
      cases ha
    | some g' =>
      congr 1
      funext k
      obtain ⟨hnone, hsome⟩ := assignAll_eq_some ha k
      obtain ⟨hnone', hsome'⟩ := assignAll_eq_some hb k
      rw [← h k] at hnone' hsome'
      cases hlast : (givenFor as k).getLast? with
      | none => rw [hnone hlast, hnone' hlast]
      | some r => exact Option.some.inj ((hsome r hlast).symm.trans (hsome' r hlast))

/-! ## Programs -/

variable {C E ℓ : Type} {view : C → κ → V}

variable (read view) in
/-- Seen through `view`, a program that went from `c` to `out` carried out the assignments `as`. -/
def Assigns (as : List (κ × ρ)) (c : C) (out : Except E C) : Prop :=
  out.toOption.map view = assignAll read (view c) as

theorem Assigns.none (c : C) : Assigns read view [] c (.ok c : Except E C) := rfl

theorem Assigns.one {c c' : C} {k : κ} {r : ρ} {v : V} (hread : read k r = some v)
    (hview : view c' = Function.update (view c) k v) :
    Assigns read view [(k, r)] c (.ok c' : Except E C) := by
  simp [Assigns, assignAll, hread, hview, Except.toOption]

theorem Assigns.rejected {c : C} {k : κ} {r : ρ} {e : E} (hread : read k r = .none) :
    Assigns read view [(k, r)] c (.error e : Except E C) := by
  simp [Assigns, assignAll, hread, Except.toOption]

theorem Assigns.bind {as bs : List (κ × ρ)} {c : C} {out : Except E C} {f : C → Except E C}
    (h : Assigns read view as c out) (hf : ∀ c', Assigns read view bs c' (f c')) :
    Assigns read view (as ++ bs) c (out >>= f) := by
  unfold Assigns at h ⊢
  rw [assignAll_append, ← h]
  cases out with
  | error e => rfl
  | ok c' => exact hf c'

/-- A loop whose body carries out the assignments of one element. -/
theorem assigns_foldlM {f : C → ℓ → Except E C} {assignments : ℓ → List (κ × ρ)}
    (hf : ∀ c l, Assigns read view (assignments l) c (f c l)) :
    ∀ (ls : List ℓ) (c : C), Assigns read view (ls.flatMap assignments) c (ls.foldlM f c)
  | [], c => .none c
  | l :: ls, c => by
    rw [List.foldlM_cons, List.flatMap_cons]
    exact (hf c l).bind fun c' => assigns_foldlM hf ls c'

end

end ConsoleCalculator.Base
