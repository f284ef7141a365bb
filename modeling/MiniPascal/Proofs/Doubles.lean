import Mathlib
import MiniPascal.Machine.Arithmetic

/-! # Doubles as numbers

A finite double stands for a rational number, and comparing and cutting off are exact on these
numbers. Every word has a finite double next to it, and a finite double is stored as a word exactly if
the number it stands for lies in the range of the words.
-/

namespace MiniPascal

open Float.Model Float.Model.UnpackedFloat

/-- The number that the parts of a double stand for. -/
def BinaryParts.number (parts : BinaryParts) : ℚ :=
  (if parts.negative then -1 else 1) * (parts.significand * 2 ^ parts.exponent)

/-- The number that a finite double stands for. -/
def number? (x : Float) : Option ℚ :=
  match DoubleClass.of x with
  | .finite parts => some parts.number
  | _ => none

/-- A number without its fraction. -/
def towardZero (v : ℚ) : Int := if 0 ≤ v then ⌊v⌋ else ⌈v⌉

/-! ## The bits of a double -/

theorem toNat_unpackMantissa (bits : BitVec Format.binary64.numBits) :
    (unpackMantissa bits).toNat = bits.toNat % 2 ^ 52 := by
  simp [unpackMantissa, BitVec.extractLsb_toNat]

theorem toNat_unpackExponent (bits : BitVec Format.binary64.numBits) :
    (unpackExponent bits).toNat = bits.toNat / 2 ^ 52 % 2 ^ 11 := by
  simp [unpackExponent, BitVec.extractLsb_toNat, Nat.shiftRight_eq_div_pow]

/-- The sign that a bit stands for. -/
def signOf (negative : Bool) : Sign := if negative then .negative else .positive

theorem ofBitVec_unpackSign (bits : BitVec Format.binary64.numBits) :
    Sign.ofBitVec (unpackSign bits) = signOf (bits.toNat / 2 ^ 63 == 1) := by
  have bound : bits.toNat / 2 ^ 63 < 2 := Nat.div_lt_of_lt_mul bits.isLt
  have bit : (unpackSign bits).toNat = bits.toNat / 2 ^ 63 := by
    simp [unpackSign, BitVec.extractLsb_toNat, Nat.shiftRight_eq_div_pow]
    omega
  unfold Sign.ofBitVec signOf
  by_cases zero : unpackSign bits = 0#1
  · rw [if_pos zero]
    rw [← bit, zero]
    rfl
  · have one : bits.toNat / 2 ^ 63 = 1 := by
      have : (unpackSign bits).toNat ≠ 0 := fun none => zero (BitVec.eq_of_toNat_eq none)
      omega
    rw [if_neg zero, one]
    rfl

/-- A double taken apart, and the same double as the arithmetic takes it apart. -/
inductive DoubleClass.Unpacks : DoubleClass → UnpackedFloat → Prop
  | notANumber : Unpacks .notANumber .notANumber
  | infinite (negative : Bool) : Unpacks (.infinite negative) (.infinity (signOf negative))
  | zero (parts : BinaryParts) (nothing : parts.significand = 0) :
      Unpacks (.finite parts) (.zero (signOf parts.negative))
  | finite (parts : BinaryParts) (something : 0 < parts.significand)
      (short : parts.significand < 2 ^ 53)
      (canonical : 2 ^ 52 ≤ parts.significand ∨ parts.exponent = -1074) :
      Unpacks (.finite parts)
        (.finite (signOf parts.negative) parts.significand parts.exponent something)

theorem DoubleClass.of_unpacks (x : Float) : (DoubleClass.of x).Unpacks x.toModel.unpack := by
  obtain ⟨bits, same⟩ : ∃ bits : BitVec Format.binary64.numBits, bits = x.toModel.toBits.toBitVec :=
    ⟨_, rfl⟩
  have whole : x.toBits.toNat = bits.toNat := by
    rw [same]
    rfl
  have full : unpackExponent bits = -1#_ ↔ bits.toNat / 2 ^ 52 % 2 ^ 11 = 2047 := by
    rw [← toNat_unpackExponent, ← BitVec.toNat_inj]
    rfl
  have empty : unpackExponent bits = 0#_ ↔ bits.toNat / 2 ^ 52 % 2 ^ 11 = 0 := by
    rw [← toNat_unpackExponent, ← BitVec.toNat_inj]
    rfl
  have nothing : unpackMantissa bits = 0#_ ↔ bits.toNat % 2 ^ 52 = 0 := by
    rw [← toNat_unpackMantissa, ← BitVec.toNat_inj]
    rfl
  have implied : (1#1 ++ unpackMantissa bits).toNat = 2 ^ 52 + bits.toNat % 2 ^ 52 := by
    rw [BitVec.toNat_append, ← Nat.shiftLeft_add_eq_or_of_lt (unpackMantissa bits).isLt,
      toNat_unpackMantissa]
    rfl
  have bias : ((Format.binary64.exponentBias : Nat) : Int) = 1023 := rfl
  unfold DoubleClass.of Float.Model.unpack UnpackedFloat.unpack
  rw [← same]
  simp only [ofBitVec_unpackSign, full, empty, nothing, Nat.pow_eq, whole, implied,
    toNat_unpackMantissa, toNat_unpackExponent, bias]
  split
  · split
    · exact .infinite _
    · exact .notANumber
  · split
    · rename_i zero
      split
      · exact .zero _ ‹_›
      · rename_i something
        have some := Nat.pos_of_ne_zero something
        rw [zero]
        exact .finite ⟨_, bits.toNat % 2 ^ 52, -1074, false⟩ some (by dsimp only; omega) (.inr rfl)
    · have whole : 2 ^ 52 ≤ 2 ^ 52 + bits.toNat % 2 ^ 52 := Nat.le_add_right _ _
      exact .finite ⟨_, 2 ^ 52 + bits.toNat % 2 ^ 52, _, _⟩ (Nat.lt_of_lt_of_le (by decide) whole)
        (by dsimp only; omega) (.inl whole)

/-! ## Finite doubles -/

theorem isFiniteReal_iff (x : Float) : isFiniteReal x = true ↔ x.toModel.unpack.isFinite = true := by
  change (!x.toModel.unpack.isNaN && !x.toModel.unpack.isInf) = true ↔ _
  cases x.toModel.unpack <;> rfl

/-- A double stands for a number exactly if it is neither infinite nor without a value. -/
theorem isSome_number (x : Float) : (number? x).isSome = isFiniteReal x := by
  rw [Bool.eq_iff_iff, isFiniteReal_iff]
  have unpacks := DoubleClass.of_unpacks x
  unfold number?
  generalize DoubleClass.of x = parts at unpacks
  generalize x.toModel.unpack = unpacked at unpacks
  cases unpacks <;> simp [UnpackedFloat.isFinite]

/-! ## The range of the words -/

/-- The magnitude of a double is compared with the range of the words by its exponent first. -/
theorem compare_magnitude {m : Nat} {e : Int} (short : m < 2 ^ 53)
    (canonical : 2 ^ 52 ≤ m ∨ e = -1074) :
    compare ((2 : ℚ) ^ 63) (m * 2 ^ e) = (compare 11 e).then (compare (2 ^ 52) m) := by
  obtain below | rfl | above := lt_trichotomy e 11
  · have small : (m : ℚ) * 2 ^ e < 2 ^ 63 := by
      calc (m : ℚ) * 2 ^ e ≤ m * 2 ^ (10 : Int) := by
            gcongr
            · norm_num
            · omega
        _ < 2 ^ 53 * 2 ^ (10 : Int) := by
            gcongr
            exact_mod_cast short
        _ = 2 ^ 63 := by norm_num
    rw [compare_gt_iff_gt.mpr small, compare_gt_iff_gt.mpr below]
    rfl
  · rw [compare_eq_iff_eq.mpr rfl]
    have scaled : (2 : ℚ) ^ 63 = ((2 ^ 52 : Nat) : ℚ) * 2 ^ (11 : Int) := by norm_num
    rw [scaled, ← cmp_eq_compare, cmp_mul_pos_right (by positivity), Nat.strictMono_cast.cmp_map_eq,
      cmp_eq_compare]
    rfl
  · have large : (2 : ℚ) ^ 63 < m * 2 ^ e := by
      have long : 2 ^ 52 ≤ m := by omega
      calc (2 : ℚ) ^ 63 < (2 : ℚ) ^ 52 * 2 ^ (12 : Int) := by norm_num
        _ ≤ (m : ℚ) * 2 ^ e := by
            gcongr
            · exact_mod_cast long
            · norm_num
            · omega
    rw [compare_lt_iff_lt.mpr large, compare_lt_iff_lt.mpr above]
    rfl

/-- The number that a double stands for, as the arithmetic takes the double apart. -/
inductive Stands : UnpackedFloat → ℚ → Prop
  | zero (sign : Sign) : Stands (.zero sign) 0
  | positive {m : Nat} {e : Int} (something : 0 < m) (short : m < 2 ^ 53)
      (canonical : 2 ^ 52 ≤ m ∨ e = -1074) : Stands (.finite .positive m e something) (m * 2 ^ e)
  | negative {m : Nat} {e : Int} (something : 0 < m) (short : m < 2 ^ 53)
      (canonical : 2 ^ 52 ≤ m ∨ e = -1074) : Stands (.finite .negative m e something) (-(m * 2 ^ e))

theorem stands_of_number {x : Float} {v : ℚ} (number : number? x = some v) :
    Stands x.toModel.unpack v := by
  have unpacks := DoubleClass.of_unpacks x
  unfold number? at number
  generalize DoubleClass.of x = parts at unpacks number
  generalize x.toModel.unpack = unpacked at unpacks ⊢
  cases unpacks with
  | notANumber | infinite => cases number
  | zero parts nothing =>
    cases number
    simpa [BinaryParts.number, nothing] using Stands.zero (signOf parts.negative)
  | finite parts something short canonical =>
    cases number
    obtain ⟨negative, m, e, closeBelow⟩ := parts
    cases negative with
    | false => simpa [BinaryParts.number, signOf] using Stands.positive something short canonical
    | true => simpa [BinaryParts.number, signOf] using Stands.negative something short canonical

theorem magnitude_pos {m : Nat} (something : 0 < m) (e : Int) : (0 : ℚ) < m * 2 ^ e := by
  have : (0 : ℚ) < m := by exact_mod_cast something
  positivity

theorem Stands.limit_le {u : UnpackedFloat} {v : ℚ} (stands : Stands u v) :
    UnpackedFloat.le (.finite .positive (2 ^ 52) 11 (by decide)) u = true ↔ 2 ^ 63 ≤ v := by
  unfold UnpackedFloat.le
  cases stands with
  | zero => simp [UnpackedFloat.compare]
  | positive something short canonical =>
    simp only [UnpackedFloat.compare, Option.any_some]
    rw [← compare_magnitude short canonical, Ordering.isLE_iff_ne_gt]
    exact compare_le_iff_le
  | @negative m e something short canonical =>
    have positive := magnitude_pos something e
    have small : ¬ (2 : ℚ) ^ 63 ≤ -(m * 2 ^ e) := by
      intro large
      linarith
    simp only [UnpackedFloat.compare, small, iff_false]
    decide

theorem Stands.lt_neg_limit {u : UnpackedFloat} {v : ℚ} (stands : Stands u v) :
    UnpackedFloat.lt u (.finite .negative (2 ^ 52) 11 (by decide)) = true ↔ v < -2 ^ 63 := by
  unfold UnpackedFloat.lt
  cases stands with
  | zero => simp [UnpackedFloat.compare]
  | @positive m e something short canonical =>
    have positive := magnitude_pos something e
    have large : ¬ (m * 2 ^ e : ℚ) < -2 ^ 63 := by
      intro small
      linarith
    simp only [UnpackedFloat.compare, large, iff_false]
    decide
  | @negative m e something short canonical =>
    simp only [UnpackedFloat.compare]
    rw [Ordering.swap_then, ← Std.OrientedOrd.eq_swap, ← Std.OrientedOrd.eq_swap,
      ← compare_magnitude short canonical, neg_lt_neg_iff, ← compare_lt_iff_lt]
    simp

theorem wordLimit_le {x : Float} {v : ℚ} (number : number? x = some v) :
    wordLimit ≤ x ↔ 2 ^ 63 ≤ v := by
  rw [← (stands_of_number number).limit_le]
  exact decide_eq_true_iff

theorem lt_neg_wordLimit {x : Float} {v : ℚ} (number : number? x = some v) :
    x < -wordLimit ↔ v < -2 ^ 63 := by
  rw [← (stands_of_number number).lt_neg_limit]
  exact decide_eq_true_iff

theorem towardZero_natCast_div (m d : Nat) : towardZero (m / d) = (m / d : Nat) := by
  rw [towardZero, if_pos (by positivity), Rat.floor_natCast_div_natCast]
  rfl

theorem towardZero_neg (v : ℚ) : towardZero (-v) = -towardZero v := by
  unfold towardZero
  obtain negative | rfl | positive := lt_trichotomy v 0
  · rw [if_pos (by linarith), if_neg (by linarith), Int.floor_neg]
  · simp
  · rw [if_neg (by linarith), if_pos (by linarith), Int.ceil_neg]

/-- A double is cut off to the integer next to it on the side of zero. -/
theorem truncate_eq {x : Float} {v : ℚ} (number : number? x = some v) : truncate x = towardZero v := by
  unfold number? at number
  unfold truncate
  generalize DoubleClass.of x = parts at number
  cases parts with
  | notANumber | infinite => cases number
  | finite parts =>
    cases number
    obtain ⟨negative, m, e, closeBelow⟩ := parts
    have magnitude : ((if 0 ≤ e then m * Nat.pow 2 e.toNat else m / Nat.pow 2 (-e).toNat : Nat) : Int) =
        towardZero (m * 2 ^ e) := by
      split
      · rename_i whole
        obtain ⟨k, rfl⟩ := Int.eq_ofNat_of_zero_le whole
        rw [zpow_natCast]
        simpa using (towardZero_natCast_div (m * 2 ^ k) 1).symm
      · rename_i part
        obtain ⟨k, rfl⟩ := Int.exists_eq_neg_ofNat (a := e) (by omega)
        rw [zpow_neg, zpow_natCast, ← div_eq_mul_inv]
        simpa using (towardZero_natCast_div m (2 ^ k)).symm
    dsimp only
    rw [magnitude, BinaryParts.number]
    cases negative with
    | false => simp
    | true => simp [towardZero_neg]

theorem towardZero_bounds {v : ℚ} (low : -2 ^ 63 ≤ v) (high : v < 2 ^ 63) :
    -2 ^ 63 ≤ towardZero v ∧ towardZero v < 2 ^ 63 := by
  unfold towardZero
  split
  · exact ⟨Int.le_floor.mpr (by push_cast; exact low), Int.floor_lt.mpr (by push_cast; exact high)⟩
  · have above : -2 ^ 63 - 1 < ⌈v⌉ := by
      rw [Int.lt_ceil]
      push_cast
      linarith
    have below : ⌈v⌉ ≤ 0 := Int.ceil_le.mpr (by push_cast; linarith)
    exact ⟨Int.sub_one_lt_iff.mp above, lt_of_le_of_lt below (by norm_num)⟩

/-- How a finite double is stored as a word: it has to be in the range of the words, and then it is cut
off exactly. -/
theorem realToWord_of_number {x : Float} {v : ℚ} (number : number? x = some v) :
    (-2 ^ 63 ≤ v ∧ v < 2 ^ 63 ∧ ∃ n, realToWord x = .ok n ∧ n.toInt = towardZero v) ∨
      ((v < -2 ^ 63 ∨ 2 ^ 63 ≤ v) ∧ realToWord x = .error .overflow) := by
  unfold realToWord
  split
  · rename_i outside
    rw [wordLimit_le number, lt_neg_wordLimit number] at outside
    exact .inr ⟨outside.symm, rfl⟩
  · rename_i inside
    rw [wordLimit_le number, lt_neg_wordLimit number, not_or, not_le, not_lt] at inside
    have bounds := towardZero_bounds inside.2 inside.1
    refine .inl ⟨inside.2, inside.1, _, rfl, ?_⟩
    rw [truncate_eq number]
    exact Int64.toInt_ofInt_of_le bounds.1 bounds.2

/-! ## Words as doubles -/

/-- An exponent is at most `k`, so the magnitude is below `2 ^ (k + 53)`. -/
inductive Small (k : Int) : UnpackedFloat → Prop
  | zero (sign : Sign) : Small k (.zero sign)
  | finite {sign : Sign} {m : Nat} {e : Int} {something : 0 < m} (short : m < 2 ^ 53) (low : e ≤ k) :
      Small k (.finite sign m e something)

theorem mantissa_shiftRight (em : ExtendedMantissa) (n : Nat) :
    (em >>> n).mantissa = em.mantissa / 2 ^ n := by
  induction n with
  | zero => exact (Nat.div_one _).symm
  | succ n ih =>
    change (em >>> n).mantissa / 2 = _
    rw [ih, Nat.div_div_eq_div_mul, Nat.pow_succ]

theorem mantissa_ofMantissaAndAccuracy (m : Nat) (accuracy : Accuracy) :
    (ExtendedMantissa.ofMantissaAndAccuracy m accuracy).mantissa = m := by
  fun_cases ExtendedMantissa.ofMantissaAndAccuracy m accuracy <;> rfl

theorem roundedMantissa_le (em : ExtendedMantissa) : em.roundedMantissa ≤ em.mantissa + 1 := by
  unfold ExtendedMantissa.roundedMantissa
  fun_cases Accuracy.roundToNearestEven em.mantissa em.accuracy <;> omega

/-- A number that is shifted to the exponent it should have. -/
theorem exponent_shiftToTargetExponent (m : Nat) (e : Int) (accuracy : Accuracy) :
    (shiftToTargetExponent .binary64 m e accuracy).2 = max e (max (m.log2 + 1 + e - 53) (-1074)) := by
  change e + (max (m.log2 + 1 + e - 53) (-1074) - e).toNat = _
  omega

theorem mantissa_shiftToTargetExponent (m : Nat) (e : Int) (accuracy : Accuracy) :
    (shiftToTargetExponent .binary64 m e accuracy).1.mantissa < 2 ^ 53 := by
  change (ExtendedMantissa.ofMantissaAndAccuracy m accuracy >>>
    (max (m.log2 + 1 + e - 53) (-1074) - e).toNat).mantissa < _
  rw [mantissa_shiftRight, mantissa_ofMantissaAndAccuracy]
  apply Nat.div_lt_of_lt_mul
  rw [← Nat.pow_add]
  calc m < 2 ^ (m.log2 + 1) := Nat.lt_log2_self
    _ ≤ _ := Nat.pow_le_pow_right (by decide) (by omega)

theorem small_roundWithAccuracy {m a : Nat} {e k : Int} (sign : Sign) (accuracy : Accuracy)
    (something : 0 < m) (below : m < 2 ^ a) (total : a + e ≤ k + 53) (low : e ≤ k) (least : -1074 ≤ k) :
    Small (k + 1) (roundWithAccuracy .binary64 sign m e accuracy) := by
  have places : m.log2 < a := (Nat.log2_lt something.ne').mpr below
  have exponent := exponent_shiftToTargetExponent m e accuracy
  have rounded : (shiftToTargetExponent .binary64 m e accuracy).1.roundedMantissa.log2 < 54 := by
    have short := mantissa_shiftToTargetExponent m e accuracy
    have up := roundedMantissa_le (shiftToTargetExponent .binary64 m e accuracy).1
    by_cases none : (shiftToTargetExponent .binary64 m e accuracy).1.roundedMantissa = 0
    · simp [none]
    · exact (Nat.log2_lt none).mpr (by omega)
  unfold roundWithAccuracy
  dsimp only
  split
  · exact .zero _
  · refine .finite (mantissa_shiftToTargetExponent ..) ?_
    rw [exponent_shiftToTargetExponent, exponent]
    omega

theorem small_unpack {k : Int} {bits : BitVec Format.binary64.numBits} (least : -1074 ≤ k)
    (most : k ≤ 971) (low : (unpackExponent bits).toNat ≤ k + 1075) :
    Small k (UnpackedFloat.unpack .binary64 bits) := by
  have bias : ((Format.binary64.exponentBias : Nat) : Int) = 1023 := rfl
  have width : ((Format.binary64.mantissaBitsWithoutImplicit : Nat) : Int) = 52 := rfl
  have not_full : unpackExponent bits ≠ -1#_ := by
    intro full
    have ones : (unpackExponent bits).toNat = 2047 := congrArg BitVec.toNat full
    omega
  unfold UnpackedFloat.unpack
  dsimp only
  rw [if_neg not_full]
  split
  · rename_i empty
    split
    · exact .zero _
    · refine .finite (Nat.lt_trans (unpackMantissa bits).isLt (by decide)) ?_
      rw [empty, bias]
      exact least
  · refine .finite (1#1 ++ unpackMantissa bits).isLt ?_
    rw [bias, width]
    omega

/-- A small number is packed without loss of finiteness. -/
theorem Small.unpack_pack {k : Int} {u : UnpackedFloat} (small : Small k u) (least : -1074 ≤ k)
    (most : k ≤ 971) : Small k (Float.Model.pack u).unpack := by
  change Small k (UnpackedFloat.unpack .binary64 (UnpackedFloat.pack .binary64 u))
  apply small_unpack least most
  cases small with
  | zero sign =>
    change ((unpackExponent (packComponents .binary64 sign _ _)).toNat : Int) ≤ _
    rw [unpackExponent_packComponents]
    change (0 : Int) ≤ _
    omega
  | @finite sign m e something short low =>
    have biased : e + Format.binary64.exponentBias + Format.binary64.mantissaBitsWithoutImplicit =
        e + 1075 := Int.add_assoc e 1023 52
    unfold UnpackedFloat.pack
    dsimp only
    rw [biased, if_neg (by omega)]
    split
    · rw [unpackExponent_packComponents, BitVec.toNat_ofNat, Nat.mod_eq_of_lt (by omega)]
      omega
    · rw [unpackExponent_packComponents]
      change (0 : Int) ≤ _
      omega

theorem Small.neg {k : Int} {u : UnpackedFloat} (small : Small k u) : Small k u.neg := by
  cases small with
  | zero => exact .zero _
  | finite short low => exact .finite short low

theorem Small.mono {k l : Int} {u : UnpackedFloat} (small : Small k u) (le : k ≤ l) : Small l u := by
  cases small with
  | zero => exact .zero _
  | finite short low => exact .finite short (low.trans le)

theorem Small.isFiniteReal {k : Int} {x : Float} (small : Small k x.toModel.unpack) :
    isFiniteReal x = true := by
  rw [isFiniteReal_iff]
  generalize x.toModel.unpack = u at small
  cases small <;> rfl

/-- Whole numbers that a double represents exactly. -/
theorem small_ofUInt64 {n : Nat} (short : n < 2 ^ 53) :
    Small 1 n.toUInt64.toFloat.toModel.unpack := by
  have same : n.toUInt64.toNat = n := Nat.mod_eq_of_lt (by omega)
  change Small 1 (Float.Model.pack (UnpackedFloat.normalize .binary64 n.toUInt64.toNat 0 .positive)).unpack
  rw [same]
  refine Small.unpack_pack ?_ (by decide) (by decide)
  unfold UnpackedFloat.normalize
  split
  · rename_i negative
    have := compare_lt_iff_lt.mp negative
    omega
  · exact .zero _
  · rename_i positive
    have something : 0 < n := by
      have := compare_gt_iff_gt.mp positive
      omega
    unfold UnpackedFloat.round decreaseExponent
    dsimp only
    generalize (0 - Format.binary64.targetExponent _).toNat = k
    rw [Nat.shiftLeft_eq]
    refine small_roundWithAccuracy (a := 53 + k) (k := 0) _ _ (by positivity) ?_ ?_ ?_ (by decide)
    · rw [Nat.pow_add]
      exact Nat.mul_lt_mul_of_pos_right short (by positivity)
    · push_cast
      omega
    · omega

/-- Whole numbers that have to be rounded. -/
theorem small_ofScientific {n : Nat} (bound : n < 2 ^ 64) :
    Small 12 (UnpackedFloat.ofScientific .binary64 n 0) := by
  unfold UnpackedFloat.ofScientific
  split
  · exact .zero _
  · rename_i something
    have exponents : (2 : Int) ^ Format.binary64.exponentBits = 2048 := rfl
    rw [if_neg (by decide), if_neg (by omega), if_pos (Int.le_refl 0), UnpackedFloat.mul]
    refine small_roundWithAccuracy (a := 117) (k := 11) _ _ ?_ ?_ (by decide) (by decide) (by decide)
    · exact Nat.mul_pos (by simpa using Nat.pos_of_ne_zero something) (by decide)
    · change n <<< 53 * 1 < _
      rw [Nat.shiftLeft_eq, Nat.mul_one]
      omega

theorem small_ofNat {n : Nat} (bound : n < 2 ^ 64) : Small 12 (Float.ofNat n).toModel.unpack := by
  change Small 12 (Float.ofScientific n false 0).toModel.unpack
  unfold Float.ofScientific
  split
  · rename_i exact
    -- the number is multiplied by one
    have product : Small 2 (UnpackedFloat.mul .binary64 n.toUInt64.toFloat.toModel.unpack
        (.finite .positive (2 ^ 52) (-52) (by decide))) := by
      have small := small_ofUInt64 exact.1
      generalize n.toUInt64.toFloat.toModel.unpack = u at small
      cases small with
      | zero => exact .zero _
      | finite short low =>
        refine small_roundWithAccuracy (a := 105) (k := 1) _ _ (by positivity) ?_ ?_ ?_ (by decide)
        · omega
        · push_cast
          omega
        · omega
    have packed := (product.unpack_pack (by decide) (by decide)).mono (show (2 : Int) ≤ 12 by decide)
    have one : (Float.exactlyRepresentablePowersOfTen[0]).toModel.unpack =
        .finite .positive (2 ^ 52) (-52) (by decide) := rfl
    rw [← one] at packed
    exact packed
  · exact (small_ofScientific bound).unpack_pack (by decide) (by decide)

/-- The double next to a word is finite. -/
theorem isFiniteReal_ofInt (n : Int64) : isFiniteReal (Float.ofInt n.toInt) = true := by
  have low := n.le_toInt
  have high := n.toInt_lt
  cases whole : n.toInt with
  | ofNat k =>
    rw [whole, Int.ofNat_eq_natCast] at high
    exact (small_ofNat (by omega)).isFiniteReal
  | negSucc k =>
    have small := small_ofNat (n := k + 1) (by omega)
    have negated : Small 12 (Float.neg (Float.ofNat (k + 1))).toModel.unpack :=
      small.neg.unpack_pack (by decide) (by decide)
    exact negated.isFiniteReal

end MiniPascal
