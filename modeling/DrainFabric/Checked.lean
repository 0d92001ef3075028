import DrainFabric.Base
import DrainFabric.Lib.Integral
import Mathlib.Algebra.Order.Ring.Abs

/-!
# Checked arithmetic over every integral type

The templates of `checked.hpp`, for any type they can be instantiated at and any width of
`int`. `Base` holds the instances the runtime uses; `addChecked_u64` and its siblings say
that they are these templates.

* `checked_arithmetic_exact` — sums, differences, products and increments are exact. In a
  type one bit narrower than `int`, which no compiler has, one intermediate would overflow:
  the type is promoted to `int`, and the last sum of a signed addition needs a bit more.
* `narrow_exact_iff` — narrowing compares in the common type. When that is unsigned and the
  result type is not, the smallest result becomes a large number and no value passes.
-/

namespace DrainFabric

variable {n : Nat}

namespace Checked

open Lib IntType

/-! ### The templates -/

/-- `narrow_checked<To>`. -/
def narrowChecked (int : Nat) (From To : IntType) (value : Int) : Option Int :=
  if From.signed ∧ ¬ To.signed ∧ value < 0 then none
  else
    let Common := common int From To
    let widened := Common.convert value
    if widened > Common.convert To.max then none
    else if To.signed ∧ widened < Common.convert To.min then none
    else some (To.convert value)

/-- The sum would leave the signed type. -/
def sumRefused (int : Nat) (T : IntType) (a b : Int) : Except Undefined Bool :=
  if b > 0 then do
    let room ← T.arith int (T.max - b)
    return a > T.convert room
  else if b < 0 then do
    let room ← T.arith int (T.min - b)
    return a < T.convert room
  else return false

/-- `add_checked<T>`. -/
def addChecked (int : Nat) (T : IntType) (a b : Int) : Except Undefined (Option Int) := do
  let U := T.unsigned
  if ¬ T.signed then
    let ua := U.convert a
    let ub := U.convert b
    let room ← U.arith int (U.max - ub)
    if ua > U.convert room then return none
    else
      let sum ← U.arith int (ua + ub)
      return some (T.convert (U.convert sum))
  else
    let refused ← sumRefused int T a b
    if refused then return none
    else
      let sum ← U.arith int (U.convert a + U.convert b)
      return some (T.convert sum)

/-- The difference would leave the type. -/
def differenceRefused (int : Nat) (T : IntType) (a b : Int) : Except Undefined Bool :=
  if ¬ T.signed then return T.unsigned.convert b > T.unsigned.convert a
  else if b > 0 then do
    let room ← T.arith int (T.min + b)
    return a < T.convert room
  else if b < 0 then do
    let room ← T.arith int (T.max + b)
    return a > T.convert room
  else return false

/-- `sub_checked<T>`. -/
def subChecked (int : Nat) (T : IntType) (a b : Int) : Except Undefined (Option Int) := do
  let U := T.unsigned
  let refused ← differenceRefused int T a b
  if refused then return none
  else
    let difference ← U.arith int (U.convert a - U.convert b)
    return some (T.convert difference)

/-- `a < T{0} ? static_cast<U>(U{0} - static_cast<U>(a)) : static_cast<U>(a)`. -/
def magnitude (int : Nat) (T : IntType) (a : Int) : Except Undefined Int :=
  if a < 0 then do
    let negated ← T.unsigned.arith int (0 - T.unsigned.convert a)
    return T.unsigned.convert negated
  else return T.unsigned.convert a

/-- `ua != U{0} && ub > static_cast<U>(limit / ua)`. -/
def productRefused (int : Nat) (U : IntType) (ua ub : Int) : Except Undefined Bool :=
  if ua ≠ 0 then do
    let quotient ← U.arith int (U.convert U.max / ua)
    return ub > U.convert quotient
  else return false

/-- The product with its sign, if the signed type can represent it. -/
def withSign (int : Nat) (T : IntType) (negative : Bool) (product : Int) :
    Except Undefined (Option Int) :=
  let U := T.unsigned
  let positiveLimit := U.convert T.max
  if negative then do
    let limit ← U.arith int (positiveLimit + 1)
    if product > U.convert limit then return none
    else
      let negated ← U.arith int (0 - product)
      return some (T.convert (U.convert negated))
  else if product > positiveLimit then return none
  else return some (T.convert product)

/-- `mul_checked<T>`. -/
def mulChecked (int : Nat) (T : IntType) (a b : Int) : Except Undefined (Option Int) := do
  let U := T.unsigned
  let ua ← magnitude int T a
  let ub ← magnitude int T b
  let refused ← productRefused int U ua ub
  if refused then return none
  else
    let exact ← U.arith int (ua * ub)
    let product := U.convert exact
    if ¬ T.signed then return some (T.convert product)
    else withSign int T (decide (a < 0) != decide (b < 0)) product

/-- `increment_checked<T>`. -/
def incrementChecked (int : Nat) (T : IntType) (value : Int) : Except Undefined (Option Int) :=
  addChecked int T value 1

/-! ### Sums and differences -/

variable {int : Nat} {T : IntType} {a b : Int}

theorem sumRefused_eq (ha : T.Holds a) (hb : T.Holds b) :
    sumRefused int T a b = .ok (decide (¬ T.Holds (a + b))) := by
  have hfits : T.Holds (a + b) ↔ T.min ≤ a + b ∧ a + b ≤ T.max := Iff.rfl
  obtain ⟨hlow, hhigh⟩ := holds_zero T
  obtain ⟨hlowa, hhigha⟩ := ha
  obtain ⟨hlowb, hhighb⟩ := hb
  unfold sumRefused
  split_ifs with hpos hneg
  · have hroom : T.Holds (T.max - b) := ⟨by omega, by omega⟩
    rw [arith_bind hroom, convert_of_holds hroom]
    exact congrArg Except.ok (decide_eq_decide.mpr (by rw [hfits]; omega))
  · have hroom : T.Holds (T.min - b) := ⟨by omega, by omega⟩
    rw [arith_bind hroom, convert_of_holds hroom]
    exact congrArg Except.ok (decide_eq_decide.mpr (by rw [hfits]; omega))
  · exact congrArg Except.ok (decide_eq_false (by rw [hfits]; omega)).symm

theorem differenceRefused_eq (ha : T.Holds a) (hb : T.Holds b) :
    differenceRefused int T a b = .ok (decide (¬ T.Holds (a - b))) := by
  have hfits : T.Holds (a - b) ↔ T.min ≤ a - b ∧ a - b ≤ T.max := Iff.rfl
  obtain ⟨hlow, hhigh⟩ := holds_zero T
  have ⟨hlowa, hhigha⟩ := ha
  have ⟨hlowb, hhighb⟩ := hb
  unfold differenceRefused
  split_ifs with hsigned hpos hneg
  · have hroom : T.Holds (T.min + b) := ⟨by omega, by omega⟩
    rw [arith_bind hroom, convert_of_holds hroom]
    exact congrArg Except.ok (decide_eq_decide.mpr (by rw [hfits]; omega))
  · have hroom : T.Holds (T.max + b) := ⟨by omega, by omega⟩
    rw [arith_bind hroom, convert_of_holds hroom]
    exact congrArg Except.ok (decide_eq_decide.mpr (by rw [hfits]; omega))
  · exact congrArg Except.ok (decide_eq_false (by rw [hfits]; omega)).symm
  · have hmin : T.min = 0 := if_neg hsigned
    rw [convert_of_nonneg ha (hmin ▸ hlowa), convert_of_nonneg hb (hmin ▸ hlowb)]
    exact congrArg Except.ok (decide_eq_decide.mpr (by rw [hfits]; omega))

/-- The difference of the unsigned values agrees with the difference. -/
theorem subChecked_eq (ha : T.Holds a) (hb : T.Holds b) :
    subChecked int T a b = .ok (T.represent (a - b)) := by
  obtain ⟨hlowa, hhigha⟩ := (holds_unsigned rfl).mp (holds_convert T.unsigned a)
  obtain ⟨hlowb, hhighb⟩ := (holds_unsigned rfl).mp (holds_convert T.unsigned b)
  obtain ⟨r, hr, hmod⟩ : ∃ r, T.unsigned.arith int _ = .ok r ∧ r ≡ _ [ZMOD 2 ^ T.width] :=
    exists_arith_of_abs (v := T.unsigned.convert a - T.unsigned.convert b) rfl (by omega) (by omega)
  have hagrees : r ≡ a - b [ZMOD 2 ^ T.width] :=
    hmod.trans ((convert_modEq T.unsigned a).sub (convert_modEq T.unsigned b))
  simp only [subChecked, differenceRefused_eq ha hb, hr, represent]
  by_cases hfits : T.Holds (a - b)
  · simp [hfits, convert_eq hagrees hfits, bind, Except.bind, pure, Except.pure]
  · simp [hfits, bind, Except.bind, pure, Except.pure]

/-- The sum of the unsigned values of the operands has one more bit than the type. -/
def Carries (a b : Int) : Prop := (a < 0 ∧ b < 0) ∨ ((a < 0 ∨ b < 0) ∧ 0 ≤ a + b)

instance : Decidable (Carries a b) := inferInstanceAs (Decidable (_ ∨ _))

theorem carries_iff (hT : T.signed = true) (ha : T.Holds a) (hb : T.Holds b) :
    Carries a b ↔ 2 ^ T.width ≤ T.unsigned.convert a + T.unsigned.convert b := by
  have hposa := convert_of_nonneg ha
  have hnega := convert_of_neg ha
  have hposb := convert_of_nonneg hb
  have hnegb := convert_of_neg hb
  rw [holds_signed hT] at ha hb
  rw [two_pow_width] at *
  unfold Carries
  rcases Int.lt_or_le a 0 with h | h <;> rcases Int.lt_or_le b 0 with h' | h'
  · rw [hnega h, hnegb h']
    omega
  · rw [hnega h, hposb h']
    omega
  · rw [hposa h, hnegb h']
    omega
  · rw [hposa h, hposb h']
    omega

/-- In a type one bit narrower than `int`, the last sum of a signed addition overflows `int`
when it carries. -/
theorem sum_overflow (hT : T.signed = true) (ha : T.Holds a) (hb : T.Holds b)
    (hwidth : T.width + 1 = int) (hcarry : Carries a b) :
    T.unsigned.arith int (T.unsigned.convert a + T.unsigned.convert b) =
      .error .signedOverflow := by
  subst hwidth
  refine arith_overflow (Nat.lt_succ_self _) ?_
  exact (carries_iff hT ha hb).mp hcarry

/-- Everywhere else it agrees with the sum. -/
theorem exists_sum (hT : T.signed = true) (ha : T.Holds a) (hb : T.Holds b)
    (h : ¬ (T.width + 1 = int ∧ Carries a b)) :
    ∃ r, T.unsigned.arith int (T.unsigned.convert a + T.unsigned.convert b) = .ok r ∧
      r ≡ a + b [ZMOD 2 ^ T.width] := by
  have hagrees := (convert_modEq T.unsigned a).add (convert_modEq T.unsigned b)
  have hcarry := carries_iff hT ha hb
  obtain ⟨hlowa, hhigha⟩ := (holds_unsigned rfl).mp (holds_convert T.unsigned a)
  obtain ⟨hlowb, hhighb⟩ := (holds_unsigned rfl).mp (holds_convert T.unsigned b)
  obtain ⟨r, hr, hmod⟩ : ∃ r, T.unsigned.arith int _ = .ok r ∧ r ≡ _ [ZMOD 2 ^ T.width] := by
    refine exists_arith (v := T.unsigned.convert a + T.unsigned.convert b) rfl (fun hnarrow => ?_)
    have hpos : (0 : Int) < 2 ^ (int - 1) := pow_pos (by decide) _
    refine ⟨by omega, ?_⟩
    change T.width < int at hnarrow
    by_cases hone : T.width + 1 = int
    · subst hone
      exact Int.not_le.mp (fun hle => h ⟨rfl, hcarry.mpr hle⟩)
    · have hpow : (2 : Int) ^ (T.width + 1) ≤ 2 ^ (int - 1) :=
        pow_le_pow_right₀ (by decide) (by omega)
      rw [pow_succ] at hpow
      change _ < (2 : Int) ^ T.width at hhigha hhighb
      omega
  exact ⟨r, hr, hmod.trans hagrees⟩

theorem addChecked_eq (ha : T.Holds a) (hb : T.Holds b) :
    addChecked int T a b =
      if T.signed ∧ T.width + 1 = int ∧ T.Holds (a + b) ∧ Carries a b then
        .error .signedOverflow
      else .ok (T.represent (a + b)) := by
  simp only [addChecked, represent]
  by_cases hT : T.signed = true
  · rw [if_neg (not_not.mpr hT), sumRefused_eq ha hb]
    by_cases hfits : T.Holds (a + b)
    · by_cases hover : T.width + 1 = int ∧ Carries a b
      · simp [hT, hfits, hover, sum_overflow hT ha hb hover.1 hover.2, bind, Except.bind]
      · obtain ⟨r, hr, hagrees⟩ := exists_sum hT ha hb hover
        rw [if_neg (fun h => hover ⟨h.2.1, h.2.2.2⟩)]
        simp [hfits, hr, convert_eq hagrees hfits, bind, Except.bind, pure, Except.pure]
    · simp [hfits, bind, Except.bind, pure, Except.pure]
  · have hmin : T.min = 0 := if_neg hT
    have hposa := hmin ▸ ha.1
    have hposb := hmin ▸ hb.1
    rw [if_pos hT, if_neg (fun h => hT h.1), convert_of_nonneg ha hposa, convert_of_nonneg hb hposb]
    rw [Bool.not_eq_true] at hT
    rw [holds_unsigned hT] at ha hb
    have hmax : T.unsigned.max = 2 ^ T.width - 1 := rfl
    have hroom : T.unsigned.Holds (T.unsigned.max - b) := by
      rw [unsigned_holds_iff hT, holds_unsigned hT, hmax]
      omega
    rw [arith_bind hroom, convert_of_holds hroom]
    by_cases hfits : T.Holds (a + b)
    · have hsum := (unsigned_holds_iff hT).mpr hfits
      have hbounds := (holds_unsigned hT).mp hfits
      rw [if_neg (by omega), if_pos hfits, arith_bind hsum, convert_of_holds hsum,
        convert_of_holds hfits]
      rfl
    · have hover := hfits
      rw [holds_unsigned hT] at hover
      rw [if_pos (by omega), if_neg hfits]
      rfl

theorem incrementChecked_eq (hw : 2 ≤ T.width) (ha : T.Holds a) :
    incrementChecked int T a =
      if T.signed ∧ T.width + 1 = int ∧ a = -1 then .error .signedOverflow
      else .ok (T.represent (a + 1)) := by
  have hone : T.Holds 1 := by
    have hpow : (2 : Int) ^ 1 ≤ 2 ^ (T.width - 1) := pow_le_pow_right₀ (by decide) (by omega)
    rw [holds_iff, two_pow_width, IntType.min]
    split_ifs <;> omega
  have hcarry : T.Holds (a + 1) ∧ Carries a 1 ↔ a = -1 := by
    unfold Carries
    constructor
    · rintro ⟨-, h⟩
      omega
    · rintro rfl
      exact ⟨holds_zero T, by omega⟩
  rw [incrementChecked, addChecked_eq ha hone]
  simp only [hcarry]

/-! ### Products -/

theorem holds_abs (ha : T.Holds a) : T.unsigned.Holds |a| := by
  have hpos : (0 : Int) < 2 ^ (T.width - 1) := pow_pos (by decide) _
  refine (holds_unsigned rfl).mpr ⟨abs_nonneg a, ?_⟩
  rw [holds_iff, IntType.min, two_pow_width] at ha
  rw [show T.unsigned.width = T.width from rfl, abs_lt, two_pow_width]
  split_ifs at ha <;> omega

theorem magnitude_eq (ha : T.Holds a) : magnitude int T a = .ok |a| := by
  unfold magnitude
  split_ifs with hneg
  · obtain ⟨hlow, hhigh⟩ := (holds_unsigned rfl).mp (holds_convert T.unsigned a)
    obtain ⟨r, hr, hmod⟩ : ∃ r, T.unsigned.arith int _ = .ok r ∧ r ≡ _ [ZMOD 2 ^ T.width] :=
      exists_arith_of_abs (v := 0 - T.unsigned.convert a) rfl (by omega) (by omega)
    have hagrees : r ≡ |a| [ZMOD 2 ^ T.width] := by
      rw [abs_of_neg hneg, ← zero_sub]
      exact hmod.trans ((convert_modEq T.unsigned a).sub_left 0)
    rw [hr]
    exact congrArg Except.ok (convert_eq hagrees (holds_abs ha))
  · rw [convert_of_nonneg ha (Int.not_lt.mp hneg), abs_of_nonneg (Int.not_lt.mp hneg)]
    rfl

theorem productRefused_eq {U : IntType} {ua ub : Int} (hua : 0 ≤ ua) :
    productRefused int U ua ub = .ok (decide (U.max < ua * ub)) := by
  obtain ⟨hlow, hmax⟩ := holds_zero U
  have hlimit : U.Holds U.max := ⟨by omega, le_rfl⟩
  unfold productRefused
  split_ifs with hne
  · have hpos : 0 < ua := lt_of_le_of_ne hua (Ne.symm hne)
    have hquotient : U.Holds (U.max / ua) :=
      ⟨hlow.trans (Int.ediv_nonneg hmax hua), Int.ediv_le_self ua hmax⟩
    rw [convert_of_holds hlimit, arith_bind hquotient, convert_of_holds hquotient]
    refine congrArg Except.ok (decide_eq_decide.mpr ?_)
    rw [gt_iff_lt, ← not_le, Int.le_ediv_iff_mul_le hpos, not_le, mul_comm]
  · rw [not_not.mp hne, zero_mul]
    exact congrArg Except.ok (decide_eq_false (Int.not_lt.mpr hmax)).symm

theorem withSign_eq (hT : T.signed = true) {product : Int} (hp : T.unsigned.Holds product)
    (negative : Bool) :
    withSign int T negative product =
      .ok (T.represent (if negative then -product else product)) := by
  have hpos : (0 : Int) < 2 ^ (T.width - 1) := pow_pos (by decide) _
  have hlimit : T.unsigned.convert T.max = 2 ^ (T.width - 1) - 1 := by
    obtain ⟨hmin, hmax⟩ := holds_zero T
    rw [convert_of_nonneg ⟨hmin.trans hmax, le_rfl⟩ hmax]
    exact if_pos hT
  obtain ⟨hlow, hhigh⟩ := (holds_unsigned rfl).mp hp
  change product < (2 : Int) ^ T.width at hhigh
  simp only [withSign, represent, hlimit, holds_signed hT]
  cases negative with
  | false =>
    simp only [Bool.false_eq_true, if_false]
    by_cases hfits : product ≤ 2 ^ (T.width - 1) - 1
    · rw [if_neg (by omega), if_pos (by omega)]
      exact congrArg (Except.ok ∘ some) (convert_of_holds ((holds_signed hT).mpr (by omega)))
    · rw [if_pos (by omega), if_neg (by omega)]
      rfl
  | true =>
    have hbound : T.unsigned.Holds (2 ^ (T.width - 1) - 1 + 1) := by
      rw [holds_unsigned rfl, show T.unsigned.width = T.width from rfl, two_pow_width]
      omega
    obtain ⟨r, hr, hmod⟩ : ∃ r, T.unsigned.arith int _ = .ok r ∧ r ≡ _ [ZMOD 2 ^ T.width] :=
      exists_arith_of_abs (v := 0 - product) rfl
        (by change -(2 : Int) ^ T.width < _; omega) (by change _ < (2 : Int) ^ T.width; omega)
    have hagrees : T.unsigned.convert r ≡ -product [ZMOD 2 ^ T.width] :=
      (convert_modEq T.unsigned r).trans (zero_sub product ▸ hmod)
    simp only [if_true]
    rw [arith_bind hbound, convert_of_holds hbound, hr]
    by_cases hfits : product ≤ 2 ^ (T.width - 1)
    · rw [if_neg (by omega), if_pos (by omega)]
      exact congrArg (Except.ok ∘ some) (convert_eq hagrees ((holds_signed hT).mpr (by omega)))
    · rw [if_pos (by omega), if_neg (by omega)]
      rfl

/-- The product from the product of the magnitudes. -/
theorem sign_mul_abs (a b : Int) :
    (if (decide (a < 0) != decide (b < 0)) = true then -(|a| * |b|) else |a| * |b|) = a * b := by
  rcases Int.lt_or_le a 0 with ha | ha <;> rcases Int.lt_or_le b 0 with hb | hb
  · simp [ha, hb, abs_of_neg]
  · simp [ha, Int.not_lt.mpr hb, abs_of_neg, abs_of_nonneg hb]
  · simp [hb, Int.not_lt.mpr ha, abs_of_neg, abs_of_nonneg ha]
  · simp [Int.not_lt.mpr ha, Int.not_lt.mpr hb, abs_of_nonneg ha, abs_of_nonneg hb]

theorem mulChecked_eq (ha : T.Holds a) (hb : T.Holds b) :
    mulChecked int T a b = .ok (T.represent (a * b)) := by
  have hnonneg : 0 ≤ |a| * |b| := mul_nonneg (abs_nonneg a) (abs_nonneg b)
  have hmax : T.unsigned.max = 2 ^ T.width - 1 := rfl
  simp only [mulChecked, magnitude_eq ha, magnitude_eq hb, productRefused_eq (abs_nonneg a),
    bind, Except.bind]
  by_cases hfits : |a| * |b| ≤ T.unsigned.max
  · have hholds : T.unsigned.Holds (|a| * |b|) := ⟨hnonneg, hfits⟩
    rw [if_neg (by simpa using hfits), arith_of_holds hholds]
    dsimp only
    rw [convert_of_holds hholds]
    by_cases hT : T.signed = true
    · rw [if_neg (not_not.mpr hT), withSign_eq hT hholds, sign_mul_abs]
    · have hmin : T.min = 0 := if_neg hT
      have hposa := hmin ▸ ha.1
      have hposb := hmin ▸ hb.1
      rw [abs_of_nonneg hposa, abs_of_nonneg hposb] at hholds ⊢
      rw [Bool.not_eq_true] at hT
      have hrep : T.Holds (a * b) := (unsigned_holds_iff hT).mp hholds
      rw [if_pos (by rw [hT]; decide), convert_of_holds hrep, represent, if_pos hrep]
      rfl
  · have hout : ¬ T.Holds (a * b) := by
      intro hrep
      have habs := ((holds_unsigned rfl).mp (holds_abs hrep)).2
      rw [abs_mul] at habs
      change _ < (2 : Int) ^ T.width at habs
      omega
    rw [if_pos (by simpa using hfits), represent, if_neg hout]
    rfl

/-! ### Narrowing -/

variable {From To : IntType} {value : Int}

/-- Narrowing an unsigned type to a signed one no wider is decided in the unsigned type, where
the smallest result is a large number. -/
theorem narrowChecked_eq_none (hTo : To.signed = true)
    (h : From.signed = false ∧ int ≤ From.width ∧ To.width ≤ From.width) (value : Int) :
    narrowChecked int From To value = none := by
  have hpow : (2 : Int) ^ To.width ≤ 2 ^ From.width := pow_le_pow_right₀ (by decide) h.2.2
  have hpos : (0 : Int) < 2 ^ (To.width - 1) := pow_pos (by decide) _
  rw [two_pow_width To] at hpow
  have hmax : From.convert To.max = 2 ^ (To.width - 1) - 1 := by
    rw [IntType.max, if_pos hTo]
    exact convert_of_holds ((holds_unsigned h.1).mpr (by omega))
  have hmin : From.convert To.min = 2 ^ From.width - 2 ^ (To.width - 1) := by
    rw [IntType.min, if_pos hTo]
    exact convert_eq (Int.modEq_of_dvd ⟨1, by omega⟩) ((holds_unsigned h.1).mpr (by omega))
  simp only [narrowChecked, common_of_unsigned hTo h, hmax, hmin]
  split_ifs with hneg hhigh hlow
  · rfl
  · rfl
  · rfl
  · exact absurd ⟨hTo, by omega⟩ hlow

theorem narrowChecked_eq (h : To.signed = true → (common int From To).signed = true)
    (hvalue : From.Holds value) : narrowChecked int From To value = To.represent value := by
  obtain ⟨hfrom, hto⟩ := widens_common int From To
  obtain ⟨hmin, hmax⟩ := holds_zero To
  have hsign : To.signed = true → (common int From To).signed = false → ∀ v : Int, 0 ≤ v :=
    fun hTo hunsigned => absurd (h hTo) (by simp [hunsigned])
  have htop : (common int From To).convert To.max = To.max :=
    convert_of_holds (hto.holds ⟨hmin.trans hmax, le_rfl⟩ (fun _ => hmax))
  have hlowest : To.signed = true → (common int From To).convert To.min = To.min :=
    fun hTo => convert_of_holds (hto.holds ⟨le_rfl, hmin.trans hmax⟩ (fun hu => hsign hTo hu _))
  have hexact : To.signed = true ∨ 0 ≤ value → (common int From To).convert value = value :=
    fun hor => convert_of_holds (hfrom.holds hvalue (fun hu => hor.elim (hsign · hu _) id))
  simp only [narrowChecked, htop]
  by_cases hneg : From.signed = true ∧ ¬ To.signed = true ∧ value < 0
  · have hout : ¬ To.Holds value := by
      rintro ⟨hlow, -⟩
      rw [IntType.min, if_neg hneg.2.1] at hlow
      omega
    rw [if_pos hneg, represent, if_neg hout]
  · have hor : To.signed = true ∨ 0 ≤ value := by
      by_contra hcon
      rw [not_or, Int.not_le] at hcon
      refine hneg ⟨?_, hcon.1, hcon.2⟩
      by_contra hunsigned
      rw [Bool.not_eq_true] at hunsigned
      exact absurd ((holds_unsigned hunsigned).mp hvalue).1 (Int.not_le.mpr hcon.2)
    rw [if_neg hneg, hexact hor, represent]
    by_cases hfits : To.Holds value
    · have hlow : ¬ (To.signed = true ∧ value < (common int From To).convert To.min) := by
        rintro ⟨hTo, hlt⟩
        rw [hlowest hTo] at hlt
        exact Int.not_le.mpr hlt hfits.1
      rw [if_pos hfits, if_neg (Int.not_lt.mpr hfits.2), if_neg hlow, convert_of_holds hfits]
    · rw [if_neg hfits]
      split_ifs with hhigh hlow
      · rfl
      · rfl
      · refine absurd ⟨?_, Int.not_lt.mp hhigh⟩ hfits
        rcases hor with hTo | hpos
        · rw [hlowest hTo] at hlow
          exact Int.not_lt.mp (fun hlt => hlow ⟨hTo, hlt⟩)
        · exact hmin.trans hpos

/-- Narrowing returns every value the result type can represent, and no other, unless the
value comes from an unsigned type that is as wide as both `int` and a signed result. -/
theorem narrow_exact_iff (int : Nat) (From To : IntType) :
    (∀ value, From.Holds value → narrowChecked int From To value = To.represent value) ↔
      ¬ (From.signed = false ∧ To.signed = true ∧ int ≤ From.width ∧ To.width ≤ From.width) := by
  constructor
  · rintro hexact ⟨hFrom, hTo, hint, hwidth⟩
    have hzero := hexact 0 (holds_zero From)
    rw [narrowChecked_eq_none hTo ⟨hFrom, hint, hwidth⟩, represent,
      if_pos (holds_zero To)] at hzero
    cases hzero
  · intro hshape value hvalue
    refine narrowChecked_eq (fun hTo => ?_) hvalue
    by_contra hunsigned
    rw [Bool.not_eq_true, common_unsigned_iff int hTo] at hunsigned
    exact hshape ⟨hunsigned.1, hTo, hunsigned.2⟩

/-! ### The types in use -/

def i8 : IntType := ⟨"std::int8_t", true, 8, by decide⟩
def i32 : IntType := ⟨"std::int32_t", true, 32, by decide⟩
def u32 : IntType := ⟨"std::uint32_t", false, 32, by decide⟩
def u64 : IntType := ⟨"std::uint64_t", false, 64, by decide⟩

/-- Five does not survive the way from `std::uint32_t` to `std::int32_t`. -/
theorem narrow_loses_five : narrowChecked 32 u32 i32 5 = none ∧ i32.Holds 5 := by
  decide

/-- Differences and products are exact, and so are sums and increments. Only in a signed type
one bit narrower than `int` the last sum of an addition overflows, when it carries. -/
theorem checked_arithmetic_exact (int : Nat) (hwidth : 8 ≤ T.width) (ha : T.Holds a)
    (hb : T.Holds b) :
    (subChecked int T a b = .ok (T.represent (a - b)) ∧
      mulChecked int T a b = .ok (T.represent (a * b))) ∧
    addChecked int T a b =
      (if T.signed ∧ T.width + 1 = int ∧ T.Holds (a + b) ∧ Carries a b then
        .error .signedOverflow
      else .ok (T.represent (a + b))) ∧
    incrementChecked int T a =
      if T.signed ∧ T.width + 1 = int ∧ a = -1 then .error .signedOverflow
      else .ok (T.represent (a + 1)) :=
  ⟨⟨subChecked_eq ha hb, mulChecked_eq ha hb⟩, addChecked_eq ha hb,
    incrementChecked_eq (by omega) ha⟩

/-- The product that has no place in eight bits, found from magnitudes that have. -/
theorem checked_arithmetic_i8 :
    i8.Holds (-128) ∧ i8.Holds (-1) ∧ mulChecked 32 i8 (-128) (-1) = .ok none :=
  ⟨by decide, by decide,
    (checked_arithmetic_exact 32 (by decide) (by decide) (by decide)).1.2.trans (by decide)⟩

-- Two values of a 31-bit type whose sum is one too, and cannot be computed in a 32-bit `int`.
example : addChecked 32 ⟨"31 bits", true, 31, by decide⟩ (-1) (-1) = .error .signedOverflow ∧
    IntType.Holds ⟨"31 bits", true, 31, by decide⟩ (-1 + -1) := by
  decide

theorem u64_holds : u64.Holds n ↔ n ≤ u64Max := by
  rw [holds_unsigned rfl, u64Max]
  change _ ∧ (n : Int) < 2 ^ 64 ↔ _
  omega

theorem u64_represent (n : Nat) :
    u64.represent n = (if n ≤ u64Max then some n else none).map Nat.cast := by
  simp only [represent, u64_holds]
  split_ifs <;> rfl

theorem addChecked_u64 {m : Nat} (hm : m ≤ u64Max) (hn : n ≤ u64Max) :
    addChecked int u64 m n = .ok ((DrainFabric.addChecked m n).map Nat.cast) := by
  rw [addChecked_eq (u64_holds.mpr hm) (u64_holds.mpr hn), if_neg (by simp [u64]),
    ← Nat.cast_add, u64_represent, DrainFabric.addChecked]
  by_cases hfits : m + n ≤ u64Max
  · rw [if_pos hfits, if_neg (by omega)]
  · rw [if_neg hfits, if_pos (by omega)]

theorem mulChecked_u64 {m : Nat} (hm : m ≤ u64Max) (hn : n ≤ u64Max) :
    mulChecked int u64 m n = .ok ((DrainFabric.mulChecked m n).map Nat.cast) := by
  rw [mulChecked_eq (u64_holds.mpr hm) (u64_holds.mpr hn), ← Nat.cast_mul, u64_represent,
    DrainFabric.mulChecked_eq]

theorem narrowChecked_u32 (hn : n ≤ u64Max) :
    narrowChecked int u64 u32 n = (narrowChecked32 n).map Nat.cast := by
  have hbound : u32.Holds n ↔ ¬ n > u32Max := by
    rw [holds_unsigned rfl, u32Max]
    change _ ∧ (n : Int) < 2 ^ 32 ↔ _
    omega
  rw [narrowChecked_eq (fun h => by cases h) (u64_holds.mpr hn), represent, narrowChecked32]
  by_cases hfits : n > u32Max
  · rw [if_neg (fun h => hbound.mp h hfits), if_pos hfits]
    rfl
  · rw [if_pos (hbound.mpr hfits), if_neg hfits]
    rfl

end Checked

end DrainFabric
