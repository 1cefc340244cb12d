import Mathlib.Data.List.DropRight

/-!
# Lists with separators

What the list functions that look for an element do around its first occurrence, and lists made of
parts that are each followed by a separator.

Results:
* `splitOn_append_cons`, `takeWhile_append_cons`, `dropWhile_ne_append_cons`, `idxOf?_append_cons`:
  the text before the first separator, and what follows it.
* `dropWhile_append_cons`, `rdropWhile_append_cons`: nothing is dropped beyond an element that
  stays.
* **`splitOn_terminated`**, **`exists_terminated`**: splitting a text gives its terminated parts
  first, and the parts it gives stand in the text in this order.
-/

namespace ConsoleCalculator.Base

variable {α : Type} {x : α}

/-- Nothing is dropped beyond an element that stays. -/
theorem dropWhile_append_cons {p : α → Bool} {c : α} (hc : p c = false) (a b : List α) :
    (a ++ c :: b).dropWhile p = a.dropWhile p ++ c :: b := by
  rw [List.dropWhile_append]
  split
  · rename_i hempty
    rw [List.dropWhile_cons_of_neg (by simp [hc]), List.isEmpty_iff.mp hempty, List.nil_append]
  · rfl

theorem rdropWhile_append_cons {p : α → Bool} {c : α} (hc : p c = false) (a b : List α) :
    (a ++ c :: b).rdropWhile p = a ++ c :: b.rdropWhile p := by
  unfold List.rdropWhile
  rw [List.reverse_append, List.reverse_cons, List.append_assoc, List.singleton_append,
    dropWhile_append_cons hc]
  simp

/-- The parts one after the other, each with a separator after it. -/
def terminated (x : α) (parts : List (List α)) : List α := (parts.map (· ++ [x])).flatten

@[simp] theorem terminated_nil : terminated x [] = [] := rfl

@[simp] theorem terminated_cons (a : List α) (parts : List (List α)) :
    terminated x (a :: parts) = a ++ x :: terminated x parts := by
  simp [terminated]

theorem terminated_append (parts parts' : List (List α)) :
    terminated x (parts ++ parts') = terminated x parts ++ terminated x parts' := by
  simp [terminated]

variable [DecidableEq α]

theorem bne_of_notMem {a : List α} (h : x ∉ a) : ∀ c ∈ a, (c != x) = true :=
  fun _ hc => bne_iff_ne.mpr fun he => h (he ▸ hc)

theorem takeWhile_append_cons {a : List α} (h : x ∉ a) (b : List α) :
    (a ++ x :: b).takeWhile (· != x) = a := by
  rw [List.takeWhile_append_of_pos (bne_of_notMem h)]
  simp

theorem dropWhile_ne_append_cons {a : List α} (h : x ∉ a) (b : List α) :
    (a ++ x :: b).dropWhile (· != x) = x :: b := by
  rw [List.dropWhile_append_of_pos (bne_of_notMem h)]
  simp

theorem idxOf?_append_cons {a : List α} (h : x ∉ a) (b : List α) :
    (a ++ x :: b).idxOf? x = some a.length := by
  have hnone : a.findIdx? (· == x) = none :=
    List.findIdx?_eq_none_iff.mpr fun c hc => beq_false_of_ne fun he => h (he ▸ hc)
  simp [List.idxOf?, List.findIdx?_append, hnone, List.findIdx?_cons]

theorem splitOn_append_cons {a : List α} (h : x ∉ a) (b : List α) :
    (a ++ x :: b).splitOn x = a :: b.splitOn x := by
  have hsplit : (a ++ x :: b).splitOn x = a.splitOn x ++ b.splitOn x :=
    List.splitOnP_append_cons (p := (· == x)) a b (beq_self_eq_true x)
  rw [hsplit, List.splitOn_eq_singleton h, List.singleton_append]

/-- Elements that are no separator are the beginning of the first part. -/
theorem splitOn_append {a : List α} (h : x ∉ a) (b : List α) :
    ∃ more parts, (a ++ b).splitOn x = (a ++ more) :: parts := by
  by_cases hb : x ∈ b
  · obtain ⟨more, after, rfl, hmore⟩ := List.eq_append_cons_of_mem hb
    refine ⟨more, after.splitOn x, ?_⟩
    rw [← List.append_assoc, splitOn_append_cons (by simp [h, hmore])]
  · exact ⟨b, [], List.splitOn_eq_singleton (by simp [h, hb])⟩

/-- **Terminated parts come first.** -/
theorem splitOn_terminated {parts : List (List α)} (h : ∀ a ∈ parts, x ∉ a) (rest : List α) :
    (terminated x parts ++ rest).splitOn x = parts ++ rest.splitOn x := by
  induction parts with
  | nil => rfl
  | cons a parts ih =>
    have ih := ih fun a' ha' => h a' (List.mem_cons_of_mem a ha')
    rw [terminated_cons, List.append_assoc, List.cons_append,
      splitOn_append_cons (h a List.mem_cons_self), ih, List.cons_append]

/-- **Every part stands after those before it.** -/
theorem exists_terminated : ∀ {before after : List (List α)} {a text : List α},
    text.splitOn x = before ++ a :: after →
    (∀ b ∈ before, x ∉ b) ∧ x ∉ a ∧ ∃ rest, text = terminated x before ++ (a ++ rest)
  | before, after, a, text, h => by
    by_cases hmem : x ∈ text
    · obtain ⟨first, tail, rfl, hfirst⟩ := List.eq_append_cons_of_mem hmem
      rw [splitOn_append_cons hfirst] at h
      cases before with
      | nil =>
        obtain ⟨rfl, -⟩ := List.cons.inj h
        exact ⟨by simp, hfirst, x :: tail, rfl⟩
      | cons b before =>
        obtain ⟨rfl, htail⟩ := List.cons.inj h
        obtain ⟨hbefore, ha, rest, rfl⟩ := exists_terminated htail
        exact ⟨by simpa [hfirst] using hbefore, ha, rest, by simp⟩
    · rw [List.splitOn_eq_singleton hmem] at h
      cases before with
      | nil =>
        obtain ⟨rfl, -⟩ := List.cons.inj h
        exact ⟨by simp, hmem, [], by simp⟩
      | cons b before => simp at h

end ConsoleCalculator.Base
