import Mathlib.Data.Sym.Sym2
import ConsoleCalculator.Base.Decimal
import ConsoleCalculator.Core

/-!
# Storage keys

Model of `OperationKey` (`storage/src/operation-key.cpp`): the text under which a calculation is
cached and stored. A key is `fact(a)` or the two operands around the operation's symbol, the
smaller operand first when the operation is commutative.

Above it, what a key is for: `Calculation` is the calculation a key stands for (operation and
operands, commutative operands sorted) and `Calculation.key` writes it down.

Results:
* `make_eq`: `make` names the operation, sorts the operands and writes the calculation's key; it
  throws when the second operand of a binary operation is missing or the name is unknown.
* **`key_injective`**: different calculations have different keys. In `1--2` the first minus is
  the operation and the second a sign; the decimal form of the first operand ends where its
  digits end, whatever follows (`Base.repr_append_inj`).
* **`make_exact`**: two keys are equal exactly if the names stand for one operation and that
  operation takes the operands for the same ones (`Operation.SameOperands`).
-/

namespace ConsoleCalculator

open Base

namespace OperationKey

/-- `OperationKey::is_commutative`. -/
def isCommutative (operation : String) : Bool :=
  operation == "add" || operation == "+" || operation == "mul" || operation == "*"

/-- `OperationKey::is_factorial`. -/
def isFactorial (operation : String) : Bool :=
  operation == "fact" || operation == "factorial" || operation == "!"

/-- `OperationKey::symbol_for`. -/
def symbolFor (operation : String) : Except Exception String :=
  if operation == "add" || operation == "+" then .ok "+"
  else if operation == "sub" || operation == "-" then .ok "-"
  else if operation == "mul" || operation == "*" then .ok "*"
  else if operation == "div" || operation == "/" then .ok "/"
  else if operation == "pow" || operation == "^" then .ok "^"
  else if isFactorial operation then .ok "fact"
  else
    .error (.ofCode .errorInvalidOperation ("Unsupported operation for storage key: " ++ operation))

/-- `OperationKey::make`. -/
def make (firstNumber : Int32) (secondNumber : Option Int32) (operation : String) :
    Except Exception String :=
  if isFactorial operation then .ok ("fact(" ++ decimal firstNumber ++ ")")
  else
    match secondNumber with
    | none =>
      .error (.ofCode .errorMissingSecondNumber
        "Second number is required for binary operation storage key.")
    | some second =>
      let swap := isCommutative operation && decide (second < firstNumber)
      let left := if swap then second else firstNumber
      let right := if swap then firstNumber else second
      match symbolFor operation with
      | .ok symbol => .ok (decimal left ++ symbol ++ decimal right)
      | .error e => .error e

end OperationKey

/-! ## Calculations -/

/-- The operations of two operands. -/
inductive BinaryOp where
  | add
  | sub
  | mul
  | div
  | pow
  deriving DecidableEq, Repr

/-- The operations that have a storage name. -/
inductive Operation where
  | binary (o : BinaryOp)
  | factorial
  deriving DecidableEq, Repr

/-- The operation a storage name stands for. -/
def Operation.named (name : String) : Option Operation :=
  if name == "add" || name == "+" then some (.binary .add)
  else if name == "sub" || name == "-" then some (.binary .sub)
  else if name == "mul" || name == "*" then some (.binary .mul)
  else if name == "div" || name == "/" then some (.binary .div)
  else if name == "pow" || name == "^" then some (.binary .pow)
  else if name == "fact" || name == "factorial" || name == "!" then some .factorial
  else none

/-- The character between the operands of a key. -/
def BinaryOp.symbol : BinaryOp → Char
  | .add => '+'
  | .sub => '-'
  | .mul => '*'
  | .div => '/'
  | .pow => '^'

/-- Whether the order of the operands is forgotten. -/
def BinaryOp.commutative : BinaryOp → Bool
  | .add => true
  | .mul => true
  | .sub => false
  | .div => false
  | .pow => false

/-- What a key stands for: an operation and its operands. -/
inductive Calculation where
  | binary (o : BinaryOp) (left right : Int32)
  | factorial (n : Int32)
  deriving DecidableEq, Repr

namespace Calculation

/-- The calculation of `a o b`: commutative operands in ascending order. -/
def ofBinary (o : BinaryOp) (a b : Int32) : Calculation :=
  if o.commutative && decide (b < a) then .binary o b a else .binary o a b

/-- The key of a calculation. -/
def key : Calculation → String
  | .binary o l r => decimal l ++ String.singleton o.symbol ++ decimal r
  | .factorial n => "fact(" ++ decimal n ++ ")"

end Calculation

/-- The calculation an operation and its operands stand for; a binary operation needs a second
operand. -/
def Operation.calculation (a : Int32) (b : Option Int32) : Operation → Option Calculation
  | .factorial => some (.factorial a)
  | .binary o => b.map (Calculation.ofBinary o a)

/-! ## Keys are exact -/

theorem symbol_not_digit (o : BinaryOp) : o.symbol.isDigit = false := by
  cases o <;> decide

theorem symbol_injective {o o' : BinaryOp} (h : o.symbol = o'.symbol) : o = o' := by
  cases o <;> cases o' <;> first | rfl | exact absurd h (by decide)

theorem key_binary_toList (o : BinaryOp) (l r : Int32) :
    (Calculation.binary o l r).key.toList =
      l.toInt.repr.toList ++ o.symbol :: r.toInt.repr.toList := by
  unfold Calculation.key decimal
  simp only [String.toList_append, String.toList_singleton, List.append_assoc,
    List.singleton_append]

theorem key_factorial_toList (n : Int32) :
    (Calculation.factorial n).key.toList =
      ['f', 'a', 'c', 't', '('] ++ (n.toInt.repr.toList ++ [')']) := by
  unfold Calculation.key decimal
  simp only [String.toList_append, List.append_assoc]
  rfl

/-- A binary key starts with a digit or a sign, a factorial key with a letter. -/
theorem repr_head_ne (a : ℤ) {x y : List Char} : a.repr.toList ++ x ≠ 'f' :: y := by
  intro h
  cases a with
  | ofNat n =>
    obtain ⟨c, cs, hc, hd⟩ := repr_cons n
    have h' : n.repr.toList ++ x = 'f' :: y := h
    rw [hc, List.cons_append] at h'
    rw [(List.cons.inj h').1] at hd
    exact absurd hd (by decide)
  | negSucc n =>
    have h' : ("-" ++ (n + 1).repr).toList ++ x = 'f' :: y := h
    rw [String.toList_append] at h'
    exact absurd (List.cons.inj h').1 (by decide)

/-- **Keys identify calculations.** -/
theorem key_injective {c c' : Calculation} (h : c.key = c'.key) : c = c' := by
  have hl : c.key.toList = c'.key.toList := by rw [h]
  cases c with
  | binary o l r =>
    cases c' with
    | binary o' l' r' =>
      rw [key_binary_toList, key_binary_toList] at hl
      obtain ⟨h1, h2⟩ := repr_append_inj (noDigitAhead_cons (symbol_not_digit o))
        (noDigitAhead_cons (symbol_not_digit o')) hl
      obtain ⟨h3, h4⟩ := List.cons.inj h2
      have h5 : r.toInt = r'.toInt := by
        have h6 : r.toInt.repr.toList ++ [] = r'.toInt.repr.toList ++ [] := by rw [h4]
        exact (repr_append_inj noDigitAhead_nil noDigitAhead_nil h6).1
      rw [Int32.toInt_inj.mp h1, symbol_injective h3, Int32.toInt_inj.mp h5]
    | factorial n =>
      rw [key_binary_toList, key_factorial_toList] at hl
      exact absurd hl (repr_head_ne l.toInt)
  | factorial n =>
    cases c' with
    | binary o l r =>
      rw [key_binary_toList, key_factorial_toList] at hl
      exact absurd hl.symm (repr_head_ne l.toInt)
    | factorial n' =>
      rw [key_factorial_toList, key_factorial_toList] at hl
      have h1 := List.append_cancel_left hl
      have hp : NoDigitAhead [')'] := noDigitAhead_cons (by decide)
      rw [Int32.toInt_inj.mp (repr_append_inj hp hp h1).1]

/-! ## `make` writes the key of a calculation -/

theorem named_binary {name : String} {o : BinaryOp} (h : Operation.named name = some (.binary o)) :
    OperationKey.isFactorial name = false ∧ OperationKey.isCommutative name = o.commutative ∧
      OperationKey.symbolFor name = .ok (String.singleton o.symbol) := by
  unfold Operation.named at h
  simp only [Bool.or_eq_true, beq_iff_eq] at h
  split_ifs at h with h1 h2 h3 h4 h5
  · cases h; rcases h1 with rfl | rfl <;> exact ⟨rfl, rfl, rfl⟩
  · cases h; rcases h2 with rfl | rfl <;> exact ⟨rfl, rfl, rfl⟩
  · cases h; rcases h3 with rfl | rfl <;> exact ⟨rfl, rfl, rfl⟩
  · cases h; rcases h4 with rfl | rfl <;> exact ⟨rfl, rfl, rfl⟩
  · cases h; rcases h5 with rfl | rfl <;> exact ⟨rfl, rfl, rfl⟩
  · exact absurd h (by simp)

theorem named_factorial {name : String} (h : Operation.named name = some .factorial) :
    OperationKey.isFactorial name = true := by
  unfold Operation.named at h
  split_ifs at h with h1 h2 h3 h4 h5 h6
  all_goals first | exact h6 | exact absurd h (by simp)

theorem named_none {name : String} (h : Operation.named name = none) :
    OperationKey.isFactorial name = false ∧
      OperationKey.symbolFor name = .error
        (.ofCode .errorInvalidOperation ("Unsupported operation for storage key: " ++ name)) := by
  unfold Operation.named at h
  split_ifs at h with h1 h2 h3 h4 h5 h6
  have hf : OperationKey.isFactorial name = false := Bool.eq_false_iff.mpr h6
  refine ⟨hf, ?_⟩
  unfold OperationKey.symbolFor
  rw [if_neg h1, if_neg h2, if_neg h3, if_neg h4, if_neg h5, if_neg (by rw [hf]; simp)]

/-- **`make`**, operation by operation: a factorial needs no second operand; a binary operation
without one is an error, whatever its name; an unknown name is an error. -/
theorem make_eq (a : Int32) (b : Option Int32) (name : String) :
    OperationKey.make a b name =
      match Operation.named name, b with
      | some .factorial, _ => .ok (Calculation.factorial a).key
      | _, none =>
        .error (.ofCode .errorMissingSecondNumber
          "Second number is required for binary operation storage key.")
      | some (.binary o), some b => .ok (Calculation.ofBinary o a b).key
      | none, some _ =>
        .error (.ofCode .errorInvalidOperation
          ("Unsupported operation for storage key: " ++ name)) := by
  unfold OperationKey.make
  cases hn : Operation.named name with
  | none =>
    obtain ⟨hf, hs⟩ := named_none hn
    rw [hf, hs]
    cases b <;> rfl
  | some op =>
    cases op with
    | factorial => rw [named_factorial hn]; rfl
    | binary o =>
      obtain ⟨hf, hc, hs⟩ := named_binary hn
      rw [hf, hc, hs]
      cases b with
      | none => rfl
      | some b =>
        simp only [Calculation.ofBinary]
        by_cases hswap : (o.commutative && decide (b < a)) = true
        · simp only [hswap, if_true, Calculation.key]; rfl
        · simp only [hswap, Calculation.key]; rfl

/-- `make` succeeds exactly on a calculation, with its key. -/
theorem make_ok_iff {a : Int32} {b : Option Int32} {name key : String} :
    OperationKey.make a b name = .ok key ↔
      ∃ op c, Operation.named name = some op ∧ op.calculation a b = some c ∧ c.key = key := by
  rw [make_eq]
  cases hn : Operation.named name with
  | none => cases b <;> simp
  | some op =>
    cases op with
    | factorial => simp [Operation.calculation]
    | binary o => cases b <;> simp [Operation.calculation]

/-! ## When two keys are equal -/

/-- The operation takes `(a, b)` and `(a', b')` for the same operands: a factorial has one of them,
a commutative operation an unordered pair. -/
def Operation.SameOperands (a : Int32) (b : Option Int32) (a' : Int32) (b' : Option Int32) :
    Operation → Prop
  | .factorial => a = a'
  | .binary .sub => (a, b) = (a', b')
  | .binary .div => (a, b) = (a', b')
  | .binary .pow => (a, b) = (a', b')
  | .binary .add => s(some a, b) = s(some a', b')
  | .binary .mul => s(some a, b) = s(some a', b')

theorem ofBinary_cases (o : BinaryOp) (a b : Int32) :
    Calculation.ofBinary o a b = .binary o a b ∨
      ((o = .add ∨ o = .mul) ∧ Calculation.ofBinary o a b = .binary o b a) := by
  unfold Calculation.ofBinary
  split
  · rename_i h
    rw [Bool.and_eq_true] at h
    refine Or.inr ⟨?_, rfl⟩
    cases o with
    | add => exact Or.inl rfl
    | mul => exact Or.inr rfl
    | sub => exact absurd h.1 (by decide)
    | div => exact absurd h.1 (by decide)
    | pow => exact absurd h.1 (by decide)
  · exact Or.inl rfl

theorem ofBinary_swap {o : BinaryOp} (ho : o.commutative = true) (a b : Int32) :
    Calculation.ofBinary o a b = Calculation.ofBinary o b a := by
  simp only [Calculation.ofBinary, ho, Bool.true_and, decide_eq_true_eq, Int32.lt_iff_toInt_lt]
  split
  · rename_i h
    rw [if_neg (by omega)]
  · rename_i h
    split
    · rfl
    · rename_i h'
      obtain rfl : a = b := Int32.toInt_inj.mp (by omega)
      rfl

/-- Sorted operands are equal exactly if the unordered pairs are. -/
theorem ofBinary_commutative_iff {o : BinaryOp} (ho : o.commutative = true) {a b a' b' : Int32} :
    Calculation.ofBinary o a b = Calculation.ofBinary o a' b' ↔
      s(some a, some b) = s(some a', some b') := by
  simp only [Sym2.eq_iff, Option.some.injEq]
  constructor
  · intro h
    rcases ofBinary_cases o a b with he | ⟨-, he⟩ <;>
      rcases ofBinary_cases o a' b' with he' | ⟨-, he'⟩ <;>
      rw [he, he'] at h <;> obtain ⟨-, rfl, rfl⟩ := Calculation.binary.inj h <;> simp
  · rintro (⟨rfl, rfl⟩ | ⟨rfl, rfl⟩)
    · rfl
    · exact ofBinary_swap ho a b

theorem ofBinary_ordered_iff {o : BinaryOp} (ho : o.commutative = false) {a b a' b' : Int32} :
    Calculation.ofBinary o a b = Calculation.ofBinary o a' b' ↔ (a, some b) = (a', some b') := by
  simp [Calculation.ofBinary, ho]

theorem ofBinary_eq_iff (o : BinaryOp) {a b a' b' : Int32} :
    Calculation.ofBinary o a b = Calculation.ofBinary o a' b' ↔
      (Operation.binary o).SameOperands a (some b) a' (some b') := by
  cases o with
  | add => exact ofBinary_commutative_iff rfl
  | mul => exact ofBinary_commutative_iff rfl
  | sub => exact ofBinary_ordered_iff rfl
  | div => exact ofBinary_ordered_iff rfl
  | pow => exact ofBinary_ordered_iff rfl

theorem ofBinary_op {o o' : BinaryOp} {a b a' b' : Int32}
    (h : Calculation.ofBinary o a b = Calculation.ofBinary o' a' b') : o = o' := by
  rcases ofBinary_cases o a b with he | ⟨-, he⟩ <;>
    rcases ofBinary_cases o' a' b' with he' | ⟨-, he'⟩ <;>
    rw [he, he'] at h <;> exact (Calculation.binary.inj h).1

/-- Two applications of an operation are one calculation exactly if it takes their operands for the
same ones. -/
theorem calculation_eq_iff {op op' : Operation} {a a' : Int32} {b b' : Option Int32}
    {c c' : Calculation} (h : op.calculation a b = some c) (h' : op'.calculation a' b' = some c') :
    c = c' ↔ op = op' ∧ op.SameOperands a b a' b' := by
  cases op with
  | factorial =>
    obtain rfl := Option.some.inj h
    cases op' with
    | factorial =>
      obtain rfl := Option.some.inj h'
      simp [Operation.SameOperands]
    | binary o' =>
      obtain ⟨b', rfl, rfl⟩ := Option.map_eq_some_iff.mp h'
      rcases ofBinary_cases o' a' b' with he | ⟨-, he⟩ <;> simp [he]
  | binary o =>
    obtain ⟨b, rfl, rfl⟩ := Option.map_eq_some_iff.mp h
    cases op' with
    | factorial =>
      obtain rfl := Option.some.inj h'
      rcases ofBinary_cases o a b with he | ⟨-, he⟩ <;> simp [he]
    | binary o' =>
      obtain ⟨b', rfl, rfl⟩ := Option.map_eq_some_iff.mp h'
      constructor
      · intro hc
        obtain rfl := ofBinary_op hc
        exact ⟨rfl, (ofBinary_eq_iff o).mp hc⟩
      · rintro ⟨ho, hs⟩
        obtain rfl := Operation.binary.inj ho
        exact (ofBinary_eq_iff o).mpr hs

/-- **Keys are exact.** Where `make` succeeds twice, the keys are equal exactly if the names stand
for the same operation and it takes the operands for the same ones. `make` fails exactly if the
name does not stand for the factorial and there is no second operand or the name stands for
nothing. -/
theorem make_exact (a a' : Int32) (b b' : Option Int32) (name name' : String) :
    (∀ key key', OperationKey.make a b name = .ok key → OperationKey.make a' b' name' = .ok key' →
      (key = key' ↔ ∃ op, Operation.named name = some op ∧ Operation.named name' = some op ∧
        op.SameOperands a b a' b')) ∧
    ((∃ e, OperationKey.make a b name = .error e) ↔
      Operation.named name ≠ some .factorial ∧ (b = none ∨ Operation.named name = none)) := by
  refine ⟨fun key key' hk hk' => ?_, ?_⟩
  · obtain ⟨op, c, hop, hc, rfl⟩ := make_ok_iff.mp hk
    obtain ⟨op', c', hop', hc', rfl⟩ := make_ok_iff.mp hk'
    have hkey : c.key = c'.key ↔ c = c' := ⟨key_injective, fun h => h ▸ rfl⟩
    rw [hkey, calculation_eq_iff hc hc', hop, hop']
    constructor
    · rintro ⟨rfl, hs⟩
      exact ⟨op, rfl, rfl, hs⟩
    · rintro ⟨op'', h, h', hs⟩
      obtain rfl := Option.some.inj h
      exact ⟨(Option.some.inj h').symm, hs⟩
  · rw [make_eq]
    cases hn : Operation.named name with
    | none => cases b <;> simp
    | some op =>
      cases op with
      | factorial => simp
      | binary o => cases b <;> simp

/-- `1 - -2` and `-1 - 2`: the same characters in another order. -/
theorem make_exact_signs :
    OperationKey.make 1 (some (-2)) "sub" = .ok "1--2" ∧
      OperationKey.make (-1) (some 2) "-" = .ok "-1-2" ∧
      ("1--2" = "-1-2" ↔ ∃ op, Operation.named "sub" = some op ∧ Operation.named "-" = some op ∧
        op.SameOperands 1 (some (-2)) (-1) (some 2)) :=
  ⟨rfl, rfl, (make_exact 1 (-1) (some (-2)) (some 2) "sub" "-").1 _ _ rfl rfl⟩

end ConsoleCalculator
