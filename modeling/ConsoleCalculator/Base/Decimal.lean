import Mathlib.Algebra.Group.Nat.Defs
import Mathlib.Algebra.Ring.Int.Defs
import Mathlib.Data.List.TakeWhile

/-!
# Decimal text

`scanDecimal` reads a decimal integer as the C functions of the `strtol` family do: leading
white space, at most one sign, the longest run of digits. It returns the sign, the magnitude and
the unread rest, and leaves the range check to the caller.

`decimal` is `std::to_string` of an `int`, and `stoi` is `std::stoi`: the text may go on after
the number, and the call throws (`none`) when there is no number or it is no `int`. `stoul` is
`std::stoul` where `unsigned long` has 64 bits, and `std::stoull`: only the digits have to be in
range, a minus sign then negates modulo `2^64`.

Results:
* **`scanDecimal_repr`**: the decimal form of an integer followed by anything that does not
  start with a digit is read back, and the rest is left unread.
* `repr_append_inj`: so two decimal forms, each followed by a text that does not start with a
  digit, agree only if the integers and the texts do. A sign in the text is no obstacle: the
  digits of the first integer end before it.
* **`stoi_decimal`**: every `int` survives the way through its decimal text.
* **`stoul_text`**: a literal with a sign is read as its value modulo `2^64`, if its digits are in
  range.
-/

namespace ConsoleCalculator.Base

/-- `isspace` in the "C" locale. -/
def isSpace (c : Char) : Bool :=
  c == ' ' || c == '\t' || c == '\n' || c == '\x0b' || c == '\x0c' || c == '\r'

/-- One optional sign: `true` for a minus. -/
def scanSign : List Char → Bool × List Char
  | '-' :: cs => (true, cs)
  | '+' :: cs => (false, cs)
  | cs => (false, cs)

/-- White space, a sign, digits: sign, magnitude and rest; `none` when there is no digit. -/
def scanDecimal (cs : List Char) : Option (Bool × ℕ × List Char) :=
  let r := scanSign (cs.dropWhile isSpace)
  match r.2.takeWhile Char.isDigit with
  | [] => none
  | ds => some (r.1, Nat.ofDigitChars 10 ds 0, r.2.dropWhile Char.isDigit)

/-- The text does not go on with a digit. -/
def NoDigitAhead (cs : List Char) : Prop := ∀ c ∈ cs.head?, c.isDigit = false

theorem noDigitAhead_nil : NoDigitAhead [] := fun _ h => absurd h (by simp)

theorem noDigitAhead_cons {c : Char} {cs : List Char} (h : c.isDigit = false) :
    NoDigitAhead (c :: cs) := by
  intro d hd
  rw [List.head?_cons, Option.mem_some_iff] at hd
  rw [← hd]; exact h

theorem isDigit_of_mem_repr {n : ℕ} {c : Char} (h : c ∈ n.repr.toList) : c.isDigit = true := by
  rw [Nat.toList_repr] at h
  exact Nat.isDigit_of_mem_toDigits (by decide) (by decide) h

/-- The digits of `n`, followed by no digit: the run of digits is exactly them. -/
theorem takeWhile_repr (n : ℕ) {rest : List Char} (h : NoDigitAhead rest) :
    (n.repr.toList ++ rest).takeWhile Char.isDigit = n.repr.toList ∧
      (n.repr.toList ++ rest).dropWhile Char.isDigit = rest := by
  have hd : ∀ c ∈ n.repr.toList, c.isDigit = true := fun c hc => isDigit_of_mem_repr hc
  rw [List.takeWhile_append_of_pos hd, List.dropWhile_append_of_pos hd]
  cases rest with
  | nil => simp
  | cons c cs =>
    have hc : ¬ c.isDigit = true := by rw [h c (by simp)]; exact Bool.false_ne_true
    rw [List.takeWhile_cons_of_neg hc, List.dropWhile_cons_of_neg hc, List.append_nil]
    exact ⟨rfl, rfl⟩

theorem repr_cons (n : ℕ) : ∃ c cs, n.repr.toList = c :: cs ∧ c.isDigit = true := by
  cases h : n.repr.toList with
  | nil => exact absurd h (by rw [Nat.toList_repr]; exact Nat.toDigits_ne_nil)
  | cons c cs =>
    refine ⟨c, cs, rfl, isDigit_of_mem_repr (n := n) ?_⟩
    rw [h]
    exact List.mem_cons_self

/-- A digit is neither white space nor a sign. -/
theorem isDigit_spec {c : Char} (h : c.isDigit = true) : isSpace c = false ∧ c ≠ '-' ∧ c ≠ '+' := by
  refine ⟨?_, ?_, ?_⟩
  · cases hs : isSpace c with
    | false => rfl
    | true =>
      simp only [isSpace, Bool.or_eq_true, beq_iff_eq] at hs
      rcases hs with ((((rfl | rfl) | rfl) | rfl) | rfl) | rfl <;> exact absurd h (by decide)
  · rintro rfl; exact absurd h (by decide)
  · rintro rfl; exact absurd h (by decide)

theorem scanSign_of_digit {c : Char} {cs : List Char} (h : c.isDigit = true) :
    scanSign (c :: cs) = (false, c :: cs) := by
  obtain ⟨-, hm, hp⟩ := isDigit_spec h
  unfold scanSign
  split
  · rename_i he; exact absurd (List.cons.inj he).1 hm
  · rename_i he; exact absurd (List.cons.inj he).1 hp
  · rfl

/-- What follows the sign is read to the end of its digits. -/
theorem scanDecimal_digits {cs : List Char} {neg : Bool} {n : ℕ} {rest : List Char}
    (hs : scanSign (cs.dropWhile isSpace) = (neg, n.repr.toList ++ rest))
    (h : NoDigitAhead rest) : scanDecimal cs = some (neg, n, rest) := by
  obtain ⟨ht, hr⟩ := takeWhile_repr n h
  unfold scanDecimal
  simp only [hs, ht, hr]
  split
  · rename_i he
    exact absurd he (by rw [Nat.toList_repr]; exact Nat.toDigits_ne_nil)
  · rw [Nat.toList_repr, Nat.ofDigitChars_ten_toDigits]

/-- **A decimal form is read back**, up to the text after it. -/
theorem scanDecimal_repr (a : ℤ) {rest : List Char} (h : NoDigitAhead rest) :
    scanDecimal (a.repr.toList ++ rest) = some (decide (a < 0), a.natAbs, rest) := by
  cases a with
  | ofNat n =>
    obtain ⟨c, cs, hc, hd⟩ := repr_cons n
    have hneg : decide (Int.ofNat n < 0) = false :=
      decide_eq_false (Int.not_lt.mpr (Int.natCast_nonneg n))
    rw [hneg]
    refine scanDecimal_digits ?_ h
    show scanSign ((n.repr.toList ++ rest).dropWhile isSpace) = (false, n.repr.toList ++ rest)
    rw [hc, List.cons_append, List.dropWhile_cons_of_neg (by rw [(isDigit_spec hd).1]; simp)]
    exact scanSign_of_digit hd
  | negSucc n =>
    rw [decide_eq_true (Int.negSucc_lt_zero n)]
    refine scanDecimal_digits ?_ h
    have hr : (Int.negSucc n).repr.toList = '-' :: (n + 1).repr.toList := by
      show ("-" ++ (n + 1).repr).toList = _
      rw [String.toList_append]
      rfl
    rw [hr, List.cons_append, List.dropWhile_cons_of_neg (by decide)]
    rfl

/-- The integer a scanned sign and magnitude denote. -/
theorem signed_natAbs (a : ℤ) : (if decide (a < 0) then -(a.natAbs : ℤ) else a.natAbs) = a := by
  split
  · rename_i h; rw [decide_eq_true_eq] at h; omega
  · rename_i h; rw [decide_eq_true_eq] at h; omega

/-- **Unique decoding**: the decimal form and the text after it are determined by their
concatenation, as long as that text does not start with a digit. -/
theorem repr_append_inj {a b : ℤ} {x y : List Char} (hx : NoDigitAhead x) (hy : NoDigitAhead y)
    (h : a.repr.toList ++ x = b.repr.toList ++ y) : a = b ∧ x = y := by
  have h1 := scanDecimal_repr a hx
  rw [h, scanDecimal_repr b hy] at h1
  simp only [Option.some.injEq, Prod.mk.injEq] at h1
  obtain ⟨hs, hm, hr⟩ := h1
  have ha := signed_natAbs a
  rw [← hs, ← hm, signed_natAbs b] at ha
  exact ⟨ha.symm, hr.symm⟩

/-! ## `int` and its text -/

/-- `std::to_string(int)`. -/
def decimal (n : Int32) : String := n.toInt.repr

/-- `std::stoi`: `none` when it throws. -/
def stoi (s : String) : Option Int32 :=
  match scanDecimal s.toList with
  | none => none
  | some (neg, n, _) =>
    let v : ℤ := if neg then -n else n
    if Int32.minValue.toInt ≤ v ∧ v ≤ Int32.maxValue.toInt then some (Int32.ofInt v) else none

/-- `std::stoul` and `std::stoull`: `none` when they throw. -/
def stoul (s : String) : Option UInt64 :=
  match scanDecimal s.toList with
  | none => none
  | some (neg, n, _) =>
    if n < 2 ^ 64 then some (if neg then -UInt64.ofNat n else UInt64.ofNat n) else none

/-- **The round trip of an `int` through decimal text.** -/
theorem stoi_decimal (n : Int32) : stoi (decimal n) = some n := by
  have hs : scanDecimal (decimal n).toList =
      some (decide (n.toInt < 0), n.toInt.natAbs, []) := by
    have := scanDecimal_repr n.toInt noDigitAhead_nil
    rwa [List.append_nil] at this
  unfold stoi
  rw [hs]
  simp only [signed_natAbs]
  rw [if_pos ⟨Int32.minValue_le_toInt n, Int32.toInt_le n⟩, Int32.ofInt_toInt]

/-! ## Literals -/

/-- A decimal literal: an optional sign and any number of digits. -/
structure DecimalLiteral where
  sign : List Char
  digits : List Char
  sign_eq : sign = [] ∨ sign = ['+'] ∨ sign = ['-']
  digits_ne_nil : digits ≠ []
  isDigit : ∀ c ∈ digits, c.isDigit = true

namespace DecimalLiteral

variable (l : DecimalLiteral)

def text : String := String.ofList (l.sign ++ l.digits)

def negative : Bool := l.sign == ['-']

def magnitude : ℕ := Nat.ofDigitChars 10 l.digits 0

/-- The integer a literal denotes. -/
def value : ℤ := if l.negative then -l.magnitude else l.magnitude

theorem natAbs_value : l.value.natAbs = l.magnitude := by
  unfold value
  cases l.negative with
  | false => simp
  | true => simp

theorem scanSign_text :
    scanSign ((l.sign ++ l.digits).dropWhile isSpace) = (l.negative, l.digits) := by
  obtain ⟨sign, digits, hsign, hne, hdigit⟩ := l
  obtain ⟨c, cs, rfl⟩ := List.exists_cons_of_ne_nil hne
  have hc := hdigit c List.mem_cons_self
  rcases hsign with rfl | rfl | rfl
  · rw [List.nil_append, List.dropWhile_cons_of_neg (by rw [(isDigit_spec hc).1]; simp)]
    exact scanSign_of_digit hc
  · rfl
  · rfl

theorem scanDecimal_text : scanDecimal l.text.toList = some (l.negative, l.magnitude, []) := by
  have hall : ∀ c ∈ l.digits, Char.isDigit c = true := l.isDigit
  have htake : l.digits.takeWhile Char.isDigit = l.digits := List.takeWhile_eq_self_iff.mpr hall
  have hdrop : l.digits.dropWhile Char.isDigit = [] := List.dropWhile_eq_nil_iff.mpr hall
  unfold scanDecimal text
  simp only [String.toList_ofList, scanSign_text, htake, hdrop]
  split
  · rename_i hnil
    exact absurd hnil l.digits_ne_nil
  · rfl

/-- **A literal is read modulo `2^64`**, if its digits are in range. -/
theorem stoul_text :
    (stoul l.text).map (fun n => (n.toNat : ℤ)) =
      if l.magnitude < 2 ^ 64 then some (l.value % 2 ^ 64) else none := by
  unfold stoul
  rw [scanDecimal_text]
  simp only
  by_cases h : l.magnitude < 2 ^ 64
  · have hof : (UInt64.ofNat l.magnitude).toNat = l.magnitude := UInt64.toNat_ofNat_of_lt' h
    rw [if_pos h, if_pos h, Option.map_some, value]
    congr 1
    cases l.negative with
    | false =>
      simp only [Bool.false_eq_true, if_false, hof]
      omega
    | true =>
      have hsize : UInt64.size = 2 ^ 64 := rfl
      simp only [if_true, UInt64.toNat_neg, hof, hsize]
      omega
  · rw [if_neg h, if_neg h]
    rfl

end DecimalLiteral

end ConsoleCalculator.Base
