import MiniPascal.Proofs.Semantics
import MiniPascal.Proofs.Machine.Typing

/-! # The machine calculates as the language says

The machine's words wrap around, and it tests afterwards whether they did. Each test is exact: an
operation on words has the exact result if that fits in a word, and fails otherwise. Operations,
conversions and tests of the machine are then those of the semantics, fault by fault.
-/

namespace MiniPascal

open Outcome Syntax

/-! ## Words -/

theorem word_eq_some {n : Int} {w : Int64} : word? n = some w ↔ w.toInt = n := by
  unfold word? fitsWord
  constructor
  · intro fits
    split at fits
    · rename_i range
      cases fits
      rw [Bool.and_eq_true, decide_eq_true_eq, decide_eq_true_eq] at range
      change (-9223372036854775808 : Int) ≤ n ∧ n ≤ 9223372036854775807 at range
      rw [Int64.toInt_ofInt]
      change n.bmod 18446744073709551616 = n
      simp only [Int.bmod]
      omega
    · cases fits
  · rintro rfl
    have lower := w.le_toInt
    have upper := w.toInt_lt
    rw [if_pos, Int64.ofInt_toInt]
    rw [Bool.and_eq_true, decide_eq_true_eq, decide_eq_true_eq]
    change (-9223372036854775808 : Int) ≤ _ ∧ _ ≤ (9223372036854775807 : Int)
    omega

theorem word_eq_none {n : Int} : word? n = none ↔ n < -9223372036854775808 ∨ 9223372036854775807 < n := by
  unfold word? fitsWord
  rw [ite_eq_right_iff]
  simp only [reduceCtorEq, imp_false, Bool.and_eq_true, decide_eq_true_eq, not_and_or]
  change ¬ (-9223372036854775808 : Int) ≤ n ∨ ¬ n ≤ (9223372036854775807 : Int) ↔ _
  omega

theorem exists_word {n : Int} (lower : -9223372036854775808 ≤ n) (upper : n ≤ 9223372036854775807) :
    ∃ w : Int64, w.toInt = n := by
  cases word : word? n with
  | none =>
    rw [word_eq_none] at word
    omega
  | some w => exact ⟨w, word_eq_some.mp word⟩

theorem add_exact (a b : Int64) : integerOperation .add a b =
    (word? (a.toInt + b.toInt)).elim (.error .overflow) .ok := by
  have lower := a.le_toInt
  have upper := a.toInt_lt
  have lower' := b.le_toInt
  have upper' := b.toInt_lt
  have sum := Int64.toInt_add a b
  simp only [integerOperation, Int64.lt_iff_toInt_lt, sum, Int64.toInt_zero]
  cases fits : word? (a.toInt + b.toInt) with
  | none =>
    rw [word_eq_none] at fits
    apply if_pos
    simp only [ne_eq, decide_eq_decide, Int.bmod]
    omega
  | some w =>
    rw [word_eq_some] at fits
    have unwrapped : (a.toInt + b.toInt).bmod (2 ^ 64) = a.toInt + b.toInt := fits ▸ w.toInt_bmod
    have same : a + b = w := by rw [← Int64.toInt_inj, sum, fits, unwrapped]
    rw [same, unwrapped]
    apply if_neg
    simp only [ne_eq, decide_eq_decide, not_not]
    omega

theorem sub_exact (a b : Int64) : integerOperation .sub a b =
    (word? (a.toInt - b.toInt)).elim (.error .overflow) .ok := by
  have lower := a.le_toInt
  have upper := a.toInt_lt
  have lower' := b.le_toInt
  have upper' := b.toInt_lt
  have difference := Int64.toInt_sub a b
  simp only [integerOperation, Int64.lt_iff_toInt_lt, difference, Int64.toInt_zero]
  cases fits : word? (a.toInt - b.toInt) with
  | none =>
    rw [word_eq_none] at fits
    apply if_pos
    simp only [ne_eq, decide_eq_decide, Int.bmod]
    omega
  | some w =>
    rw [word_eq_some] at fits
    have unwrapped : (a.toInt - b.toInt).bmod (2 ^ 64) = a.toInt - b.toInt := fits ▸ w.toInt_bmod
    have same : a - b = w := by rw [← Int64.toInt_inj, difference, fits, unwrapped]
    rw [same, unwrapped]
    apply if_neg
    simp only [ne_eq, decide_eq_decide, not_not]
    omega

/-- The quotient of two words fits in a word, but for one pair. -/
theorem tdiv_fits {a b : Int64} (other : ¬ (a = leastWord ∧ b = -1)) :
    -9223372036854775808 ≤ a.toInt.tdiv b.toInt ∧ a.toInt.tdiv b.toInt ≤ 9223372036854775807 := by
  have lower := a.le_toInt
  have upper := a.toInt_lt
  have size := Int.natAbs_tdiv_le_natAbs a.toInt b.toInt
  by_contra out
  -- only a quotient as large as its dividend could be too large, and then the divisor is -1
  have quotient : a.toInt.tdiv b.toInt = 9223372036854775808 := by omega
  have least : a.toInt = -9223372036854775808 := by omega
  have abs := Int.natAbs_tdiv a.toInt b.toInt
  rw [quotient, least] at abs
  change 9223372036854775808 = 9223372036854775808 / b.toInt.natAbs at abs
  have one : b.toInt.natAbs = 1 := by
    have positive : b.toInt.natAbs ≠ 0 := by
      intro zero
      rw [zero] at abs
      omega
    by_contra larger
    have half := @Nat.div_le_div_left 2 b.toInt.natAbs 9223372036854775808 (by omega) (by omega)
    omega
  obtain one | minusOne : b.toInt = 1 ∨ b.toInt = -1 := by omega
  · rw [one, Int.tdiv_one] at quotient
    omega
  · exact other ⟨Int64.toInt_inj.mp least, Int64.toInt_inj.mp minusOne⟩

theorem div_exact (a b : Int64) (nonzero : b ≠ 0) : integerOperation .div a b =
    (word? (a.toInt.tdiv b.toInt)).elim (.error .overflow) .ok := by
  simp only [integerOperation, if_neg nonzero]
  by_cases least : a = leastWord ∧ b = -1
  · obtain ⟨rfl, rfl⟩ := least
    rfl
  · have fits := tdiv_fits least
    have quotient : word? (a.toInt.tdiv b.toInt) = some (a / b) := by
      rw [word_eq_some, Int64.toInt_div]
      simp only [Int.bmod]
      omega
    rw [if_neg least, quotient]
    rfl

/-- A product wraps around exactly if dividing it again does not give the other factor back. -/
theorem mul_exact (a b : Int64) : integerOperation .mul a b =
    (word? (a.toInt * b.toInt)).elim (.error .overflow) .ok := by
  have product := Int64.toInt_mul a b
  simp only [integerOperation]
  cases fits : word? (a.toInt * b.toInt) with
  | some w =>
    rw [word_eq_some] at fits
    have unwrapped : (a.toInt * b.toInt).bmod (2 ^ 64) = a.toInt * b.toInt := fits ▸ w.toInt_bmod
    have same : a * b = w := by rw [← Int64.toInt_inj, product, fits, unwrapped]
    rw [same]
    apply if_neg
    rintro ⟨nonzero, back | ⟨rfl, rfl⟩⟩
    · apply back
      rw [← Int64.toInt_inj, Int64.toInt_div, fits, Int.mul_tdiv_cancel_left]
      · exact b.toInt_bmod
      · exact fun zero => nonzero (Int64.toInt_inj.mp zero)
    · have upper := w.toInt_lt
      rw [fits] at upper
      exact absurd upper (by decide)
  | none =>
    rw [word_eq_none] at fits
    apply if_pos
    have nonzero : a ≠ 0 := by
      rintro rfl
      rw [Int64.toInt_zero, Int.zero_mul] at fits
      omega
    refine ⟨nonzero, ?_⟩
    by_contra undetected
    obtain ⟨back, ordinary⟩ := not_or.mp undetected
    have back : a * b / a = b := not_not.mp back
    have fitting : ¬ (a * b = leastWord ∧ a = -1) := by
      rintro ⟨least, rfl⟩
      rw [least] at back
      exact ordinary ⟨rfl, back.symm⟩
    -- the product is off by a multiple of 2 ^ 64, and by less than the divisor
    have quotient : (a * b).toInt.tdiv a.toInt = b.toInt := by
      have range := tdiv_fits fitting
      have wrapped := congrArg Int64.toInt back
      rw [Int64.toInt_div] at wrapped
      rw [← wrapped]
      simp only [Int.bmod]
      omega
    have parts := Int.mul_tdiv_add_tmod (a * b).toInt a.toInt
    rw [quotient] at parts
    obtain ⟨turns, off⟩ : ((2 ^ 64 : Nat) : Int) ∣ (a * b).toInt - a.toInt * b.toInt :=
      product ▸ Int.dvd_bmod_sub_self
    have small : ((a * b).toInt.tmod a.toInt).natAbs < a.toInt.natAbs := by
      rw [Int.natAbs_tmod]
      apply Nat.mod_lt
      have : a.toInt ≠ 0 := fun zero => nonzero (Int64.toInt_inj.mp zero)
      omega
    have lower := a.le_toInt
    have upper := a.toInt_lt
    have lower' := (a * b).le_toInt
    have upper' := (a * b).toInt_lt
    omega

theorem exactly_cases (op : Operator) (x y : Int) :
    (∃ n, op.exactly x y = .ok n) ∨ op.exactly x y = .error .divisionByZero ∧ op = .div ∧ y = 0 := by
  cases op with
  | add | sub | mul => exact .inl ⟨_, rfl⟩
  | div =>
    by_cases zero : y = 0
    · exact .inr ⟨if_pos zero, rfl, zero⟩
    · exact .inl ⟨_, if_neg zero⟩

theorem integerOperation_of_exactly {op : Operator} {a b : Int64} {n : Int}
    (exact : op.exactly a.toInt b.toInt = .ok n) :
    integerOperation op.opcode a b = (word? n).elim (.error .overflow) .ok := by
  cases op with
  | add =>
    cases exact
    exact add_exact a b
  | sub =>
    cases exact
    exact sub_exact a b
  | mul =>
    cases exact
    exact mul_exact a b
  | div =>
    have nonzero : b.toInt ≠ 0 := by
      intro zero
      rw [Operator.exactly, if_pos zero] at exact
      cases exact
    rw [Operator.exactly, if_neg nonzero] at exact
    cases exact
    exact div_exact a b fun zero => nonzero (congrArg Int64.toInt zero)

/-- An operation on words has the exact result if that fits in a word. It fails by a division by zero,
and otherwise by an overflow. -/
theorem integers_are_exact_or_fail (op : Operator) (a b : Int64) :
    (∀ c, integerOperation op.opcode a b = .ok c ↔ op.exactly a.toInt b.toInt = .ok c.toInt) ∧
    ((∃ c, integerOperation op.opcode a b = .ok c) ↔
      ∃ n, op.exactly a.toInt b.toInt = .ok n ∧ -9223372036854775808 ≤ n ∧ n ≤ 9223372036854775807) ∧
    ∀ failure, integerOperation op.opcode a b = .error failure ↔
      failure = .divisionByZero ∧ op = .div ∧ b = 0 ∨
        failure = .overflow ∧ ¬ (op = .div ∧ b = 0) ∧
          ∃ n, op.exactly a.toInt b.toInt = .ok n ∧
            (n < -9223372036854775808 ∨ 9223372036854775807 < n) := by
  obtain ⟨n, exact⟩ | ⟨undefined, rfl, zero⟩ := exactly_cases op a.toInt b.toInt
  · have result := integerOperation_of_exactly exact
    have defined : ¬ (op = .div ∧ b = 0) := by
      rintro ⟨rfl, rfl⟩
      cases exact
    rw [exact, result]
    cases fits : word? n with
    | none =>
      rw [word_eq_none] at fits
      refine ⟨fun c => ⟨?_, ?_⟩, ⟨?_, ?_⟩, fun failure => ⟨?_, ?_⟩⟩
      · rintro ⟨⟩
      · rintro ⟨⟩
        have lower := c.le_toInt
        have upper := c.toInt_lt
        omega
      · rintro ⟨_, ⟨⟩⟩
      · rintro ⟨_, ⟨⟩, lower, upper⟩
        omega
      · rintro ⟨⟩
        exact .inr ⟨rfl, defined, n, rfl, by omega⟩
      · rintro (⟨_, divides⟩ | ⟨rfl, _⟩)
        · exact absurd divides defined
        · rfl
    | some w =>
      rw [word_eq_some] at fits
      have lower := w.le_toInt
      have upper := w.toInt_lt
      refine ⟨fun c => ⟨?_, ?_⟩, ⟨fun _ => ⟨n, rfl, by omega⟩, fun _ => ⟨w, rfl⟩⟩, fun failure => ⟨?_, ?_⟩⟩
      · rintro ⟨⟩
        rw [fits]
      · rintro ⟨⟩
        exact congrArg _ (Int64.toInt_inj.mp fits)
      · rintro ⟨⟩
      · rintro (⟨_, divides⟩ | ⟨_, _, _, ⟨⟩, outside⟩)
        · exact absurd divides defined
        · omega
  · obtain rfl : b = 0 := Int64.toInt_inj.mp zero
    rw [undefined]
    refine ⟨fun c => ⟨?_, ?_⟩, ⟨?_, ?_⟩, fun failure => ⟨?_, ?_⟩⟩
    · rintro ⟨⟩
    · rintro ⟨⟩
    · rintro ⟨_, ⟨⟩⟩
    · rintro ⟨_, ⟨⟩, _⟩
    · rintro ⟨⟩
      exact .inl ⟨rfl, rfl, rfl⟩
    · rintro (⟨rfl, _⟩ | ⟨_, defined, _⟩)
      · rfl
      · exact absurd ⟨rfl, rfl⟩ defined

/-! ## Faults -/

/-- A fault of the language as the trouble that a machine has with a quad. -/
inductive Fault.Troubles : Fault → Trouble → Prop
  | divisionByZero : Troubles .divisionByZero (.fault .divisionByZero)
  | overflow : Troubles .overflow (.fault .overflow)
  | notFinite : Troubles .notFinite (.fault .notFinite)
  | wrongKind {index : Int} {held wanted : Kind} :
      Troubles .wrongKind (.crash (.wrongKind index held wanted))

/-- The machine comes to the same result, or has the trouble that a fault means. -/
inductive Agree {α β : Type} (same : α → β → Prop) : Except Fault α → Outcome β → Prop
  | ok {a : α} {b : β} (here : same a b) : Agree same (.ok a) (.ok b)
  | error {fault : Fault} {trouble : Trouble} (means : fault.Troubles trouble) :
      Agree same (.error fault) (.error trouble)

namespace Agree

variable {α β γ δ : Type} {R : α → β → Prop} {T : γ → δ → Prop} {x : Except Fault α} {y : Outcome β}

theorem bind {f : α → Except Fault γ} {g : β → Outcome δ} (first : Agree R x y)
    (second : ∀ a b, R a b → Agree T (f a) (g b)) : Agree T (x.bind f) (y >>= g) := by
  cases first with
  | ok related => exact second _ _ related
  | error means => exact .error means

/-- The machine does something more, which cannot fail. -/
theorem followed {S : α → δ → Prop} {g : β → Outcome δ} (first : Agree R x y)
    (second : ∀ a b, x = .ok a → R a b → ∃ d, g b = .ok d ∧ S a d) : Agree S x (y >>= g) := by
  cases first with
  | @ok a b related =>
    obtain ⟨d, does, related'⟩ := second a b rfl related
    change Agree S (.ok a) (g b)
    rw [does]
    exact .ok related'
  | error means => exact .error means

/-- An action writes a memory that is related to a result. -/
inductive Writes (R : α → SymbolTable → Prop) : α → Action → Prop
  | intro {a : α} {memory : SymbolTable} (related : R a memory) : Writes R a (.write memory)

theorem write {R : α → SymbolTable → Prop} {y : Outcome SymbolTable} (agrees : Agree R x y) :
    Agree (Writes R) x (y >>= fun memory => .ok (.write memory)) :=
  agrees.followed fun _ memory _ related => ⟨.write memory, rfl, .intro related⟩

end Agree

/-! ## Operations -/

theorem integers_agree (op : Operator) (a b : Int64) :
    Agree Eq (op.apply (.int a) (.int b)) (compute op.opcode (.int a) (.int b)) := by
  rw [compute_int]
  change Agree Eq ((op.exactly a.toInt b.toInt).bind _) _
  obtain ⟨n, exact⟩ | ⟨_, rfl, zero⟩ := exactly_cases op a.toInt b.toInt
  · rw [exact, integerOperation_of_exactly exact]
    change Agree Eq (((word? n).map Value.int).elim (.error .overflow) .ok) _
    cases word? n with
    | none => exact .error .overflow
    | some w => exact .ok rfl
  · obtain rfl : b = 0 := Int64.toInt_inj.mp zero
    exact .error .divisionByZero

theorem realOperation_eq (op : Operator) (a b : Float) :
    realOperation op.opcode a b =
      if isFiniteReal (op.onDoubles a b) then .ok (op.onDoubles a b) else .error .notFinite := by
  cases op <;> rfl

theorem apply_agrees (op : Operator) (x y : Value) :
    Agree Eq (op.apply x y) (compute op.opcode x y) := by
  have reals {a b : Float} (left : x.double = .ok a) (right : y.double = .ok b)
      (first : x.toReal = .ok a) (second : y.toReal = .ok b)
      (real : arithmeticKind x.kind y.kind = .real)
      (apart : op.apply x y = x.double.bind fun a => y.double.bind fun b =>
        if isFiniteReal (op.onDoubles a b) then .ok (.real (op.onDoubles a b)) else .error .notFinite) :
      Agree Eq (op.apply x y) (compute op.opcode x y) := by
    rw [compute_real op.opcode first second real, apart, left, right, realOperation_eq]
    change Agree Eq (if _ then _ else _) _
    split
    · exact .ok rfl
    · exact .error .notFinite
  cases x with
  | int a =>
    cases y with
    | int b => exact integers_agree op a b
    | real b => exact reals rfl rfl rfl rfl rfl rfl
    | text => exact .error .wrongKind
  | real a =>
    cases y with
    | int b => exact reals rfl rfl rfl rfl rfl rfl
    | real b => exact reals rfl rfl rfl rfl rfl rfl
    | text => exact .error .wrongKind
  | text => cases y <;> exact .error .wrongKind

/-- The kind of a result. -/
theorem kind_of_apply {op : Operator} {x y value : Value} (applies : op.apply x y = .ok value) :
    value.kind = arithmeticKind x.kind y.kind := by
  have agrees := apply_agrees op x y
  rw [applies] at agrees
  have computes : compute op.opcode x y = .ok value := by
    generalize compute op.opcode x y = result at agrees ⊢
    cases agrees with
    | ok same => rw [same]
  have text (is : x.kind = .text ∨ y.kind = .text) : value.kind = arithmeticKind x.kind y.kind := by
    obtain ⟨_, _, fails⟩ := compute_text op.opcode is
    rw [fails] at computes
    cases computes
  obtain left | left := x.kind_cases
  · obtain right | right := y.kind_cases
    · obtain ⟨result, same, kind⟩ | ⟨_, fails, _⟩ := compute_numeric op.opcode left right
      · rw [same] at computes
        cases computes
        exact kind
      · rw [fails] at computes
        cases computes
    · exact text (.inr right)
  · exact text (.inl left)

/-! ## Storing -/

/-- A value that fits a kind has that kind. -/
theorem kind_of_fit {value fitted : Value} {kind : Kind} (fits : value.fit kind = .ok fitted) :
    fitted.kind = kind := by
  cases value with
  | int n =>
    cases kind with
    | integer | real =>
      cases fits
      rfl
    | text | other => cases fits
  | real x =>
    cases kind with
    | integer =>
      change (if wordLimit ≤ x ∨ x < -wordLimit then _ else _) = _ at fits
      split at fits
      · cases fits
      · cases fits
        rfl
    | real =>
      cases fits
      rfl
    | text | other => cases fits
  | text t =>
    cases kind with
    | text =>
      cases fits
      rfl
    | integer | real | other => cases fits

/-- Storing converts as an assignment does. -/
theorem fit_agrees {symbols : SymbolTable} {i : Nat} {cell : Cell}
    (here : symbols.cells[i]? = some cell) (value : Value) :
    Agree (fun fitted after => after = symbols.modify i cell.usage fitted)
      (value.fit cell.value.kind) (symbols.stored i value) := by
  rw [SymbolTable.stored_of_cell here]
  generalize cell.value.kind = kind
  have fits {fitted : Value} (same : kind = fitted.kind) :
      Agree (fun fitted after => after = symbols.modify i cell.usage fitted) (.ok fitted)
        (if kind = fitted.kind then .ok (symbols.modify i cell.usage fitted)
          else .error (.crash (.wrongKind i kind fitted.kind))) := by
    rw [if_pos same]
    exact .ok rfl
  have misfits (other : kind ≠ value.kind) :
      Agree (fun fitted after => after = symbols.modify i cell.usage fitted) (.error .wrongKind)
        (if kind = value.kind then .ok (symbols.modify i cell.usage value)
          else .error (.crash (.wrongKind i kind value.kind))) := by
    rw [if_neg other]
    exact .error .wrongKind
  cases value with
  | int n =>
    cases kind with
    | integer => exact fits rfl
    | real => exact fits rfl
    | text | other => exact misfits nofun
  | real x =>
    cases kind with
    | integer =>
      unfold Value.fit Value.converted realToWord
      dsimp only
      split
      · exact .error .overflow
      · exact fits rfl
    | real => exact fits rfl
    | text | other => exact misfits nofun
  | text t =>
    cases kind with
    | text => exact fits rfl
    | integer | real | other => exact misfits nofun

/-! ## Tests -/

theorem sign_eq {x : Value} (numeric : x.kind.Numeric) : x.sign = .ok x.signum := by
  cases x with
  | int n =>
    simp only [Value.sign, Value.signum, Int64.lt_iff_toInt_lt, Int64.toInt_zero]
    rcases Int.lt_trichotomy n.toInt 0 with negative | zero | positive
    · rw [if_pos negative, Int.sign_eq_neg_one_of_neg negative]
    · simp [zero]
    · rw [if_neg (by omega), if_pos positive, Int.sign_eq_one_of_pos positive]
  | real x => rfl
  | text => exact absurd rfl numeric.ne_text

/-- The jump after a relation is taken exactly if the relation does not hold. -/
theorem taken_falseJump (comparison : Comparison) (sign : Int) :
    comparison.falseJump.taken sign = !comparison.holds sign := by
  have flip {p q : Prop} [Decidable p] [Decidable q] (opposite : p ↔ ¬ q) :
      decide p = !decide q := by
    rw [← decide_not]
    exact decide_eq_decide.mpr opposite
  cases comparison with
  | equal => exact flip Iff.rfl
  | notEqual => exact flip not_not.symm
  | less => exact flip Int.not_lt.symm
  | greater => exact flip Int.not_lt.symm
  | lessEq => exact flip Int.not_le.symm
  | greaterEq => exact flip Int.not_le.symm

end MiniPascal
