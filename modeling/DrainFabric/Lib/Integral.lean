import Mathlib.Algebra.Order.Ring.Int
import Mathlib.Data.Int.ModEq

/-!
# Integral types of C++

The values of a fixed-width integer are `Int`; the type says which of them it holds and in
which type an expression over them is computed.

* `IntType.convert` — `static_cast`: the value of the type that agrees modulo `2 ^ width`;
* `IntType.promote`, `IntType.common` — the integral promotions and the common type of two
  operands, relative to the width of `int`;
* `IntType.arith` — the value of an operation on promoted operands. It wraps in an unsigned
  type, and in a signed type it is undefined when it overflows.
-/

namespace Lib

/-- An integral type. Types of one shape are told apart by their name, as `char16_t` and
`std::uint16_t` are. -/
structure IntType where
  name : String
  signed : Bool
  width : Nat
  pos : 0 < width
  deriving DecidableEq

/-- What the language leaves undefined. -/
inductive Undefined
  | signedOverflow
  deriving DecidableEq, Repr

namespace IntType

/-- `std::numeric_limits<T>::min()`. -/
def min (T : IntType) : Int := if T.signed then -2 ^ (T.width - 1) else 0

/-- `std::numeric_limits<T>::max()`. -/
def max (T : IntType) : Int := if T.signed then 2 ^ (T.width - 1) - 1 else 2 ^ T.width - 1

/-- The value is representable in the type. -/
def Holds (T : IntType) (v : Int) : Prop := T.min ≤ v ∧ v ≤ T.max

instance (T : IntType) (v : Int) : Decidable (T.Holds v) := inferInstanceAs (Decidable (_ ∧ _))

/-- The value when the type can represent it. -/
def represent (T : IntType) (v : Int) : Option Int := if T.Holds v then some v else none

/-- `static_cast<T>`. -/
def convert (T : IntType) (v : Int) : Int := T.min + (v - T.min) % 2 ^ T.width

/-- `std::make_unsigned_t<T>`. -/
def unsigned (T : IntType) : IntType :=
  { T with name := if T.signed then "unsigned " ++ T.name else T.name, signed := false }

/-- Every value of `A` is one of `C`, negative ones apart when `C` is unsigned. -/
def Widens (A C : IntType) : Prop :=
  A.width ≤ C.width ∧ (C.signed = true → A.signed = false → A.width < C.width)

/-- The integral promotions: what is narrower than `int` is computed in `int`. -/
def promote (int : Nat) (T : IntType) : IntType :=
  if h : T.width < int then ⟨"int", true, int, by omega⟩ else T

/-- The usual arithmetic conversions of two promoted types. A wider type has the greater
rank; of two types as wide as each other the unsigned one prevails. -/
def usual (A B : IntType) : IntType :=
  if A.signed = B.signed then (if A.width < B.width then B else A)
  else if A.signed then (if B.width < A.width then A else B)
  else if A.width < B.width then B
  else A

/-- `std::common_type_t<A, B>`. -/
def common (int : Nat) (A B : IntType) : IntType :=
  if A = B then A else usual (A.promote int) (B.promote int)

/-- The value of an operation whose operands are of type `T`, from its exact result. -/
def arith (int : Nat) (T : IntType) (v : Int) : Except Undefined Int :=
  let P := T.promote int
  if ¬ P.signed then .ok (P.convert v)
  else if P.Holds v then .ok v
  else .error .signedOverflow

/-! ### Bounds -/

variable {T : IntType} {int : Nat} {v : Int}

theorem two_pow_width (T : IntType) : (2 : Int) ^ T.width = 2 * 2 ^ (T.width - 1) := by
  rw [← pow_succ', Nat.sub_add_cancel T.pos]

theorem max_eq (T : IntType) : T.max = T.min + 2 ^ T.width - 1 := by
  unfold max min
  rw [two_pow_width]
  split_ifs <;> omega

theorem holds_iff : T.Holds v ↔ T.min ≤ v ∧ v < T.min + 2 ^ T.width := by
  rw [Holds, max_eq]
  omega

theorem holds_signed (h : T.signed = true) :
    T.Holds v ↔ -2 ^ (T.width - 1) ≤ v ∧ v < 2 ^ (T.width - 1) := by
  rw [Holds, min, max, if_pos h, if_pos h]
  omega

theorem holds_unsigned (h : T.signed = false) : T.Holds v ↔ 0 ≤ v ∧ v < 2 ^ T.width := by
  rw [Holds, min, max, h]
  simp only [Bool.false_eq_true, if_false]
  omega

theorem unsigned_holds_iff (h : T.signed = false) : T.unsigned.Holds v ↔ T.Holds v := by
  rw [holds_unsigned h, holds_unsigned rfl]
  rfl

theorem holds_zero (T : IntType) : T.Holds 0 := by
  have hpos : (0 : Int) < 2 ^ (T.width - 1) := pow_pos (by decide) _
  rw [holds_iff, two_pow_width, min]
  split_ifs <;> omega

/-! ### Conversions -/

theorem convert_of_holds (h : T.Holds v) : T.convert v = v := by
  rw [holds_iff] at h
  rw [convert, Int.emod_eq_of_lt (by omega) (by omega)]
  omega

theorem holds_convert (T : IntType) (v : Int) : T.Holds (T.convert v) := by
  have hpos : (0 : Int) < 2 ^ T.width := pow_pos (by decide) _
  have hlow := Int.emod_nonneg (v - T.min) hpos.ne'
  have hhigh := Int.emod_lt_of_pos (v - T.min) hpos
  rw [holds_iff, convert]
  omega

theorem convert_congr {v' : Int} (h : v ≡ v' [ZMOD 2 ^ T.width]) : T.convert v = T.convert v' := by
  rw [convert, convert, (h.sub_right T.min).eq]

theorem convert_modEq (T : IntType) (v : Int) : T.convert v ≡ v [ZMOD 2 ^ T.width] := by
  have h : T.min + (v - T.min) % 2 ^ T.width ≡ T.min + (v - T.min) [ZMOD 2 ^ T.width] :=
    (Int.mod_modEq _ _).add_left T.min
  rwa [add_sub_cancel] at h

/-- A value of the type is found again from everything that agrees with it. -/
theorem convert_eq {r : Int} (h : r ≡ v [ZMOD 2 ^ T.width]) (hv : T.Holds v) : T.convert r = v :=
  (convert_congr h).trans (convert_of_holds hv)

theorem convert_of_nonneg (h : T.Holds v) (hv : 0 ≤ v) : T.unsigned.convert v = v := by
  have hpos : (0 : Int) < 2 ^ (T.width - 1) := pow_pos (by decide) _
  refine convert_of_holds ((holds_unsigned rfl).mpr ⟨hv, ?_⟩)
  rw [holds_iff, two_pow_width, min] at h
  rw [show T.unsigned.width = T.width from rfl, two_pow_width]
  split_ifs at h <;> omega

theorem convert_of_neg (h : T.Holds v) (hv : v < 0) : T.unsigned.convert v = v + 2 ^ T.width := by
  have hpos : (0 : Int) < 2 ^ (T.width - 1) := pow_pos (by decide) _
  refine convert_eq (Int.modEq_of_dvd ⟨1, by simp [unsigned]⟩) ((holds_unsigned rfl).mpr ?_)
  rw [holds_iff, two_pow_width, min] at h
  rw [show T.unsigned.width = T.width from rfl, two_pow_width]
  split_ifs at h <;> omega

/-! ### Promotions -/

theorem promote_of_lt (h : T.width < int) :
    (T.promote int).signed = true ∧ (T.promote int).width = int := by
  rw [promote, dif_pos h]
  exact ⟨rfl, rfl⟩

theorem promote_of_le (h : int ≤ T.width) : T.promote int = T :=
  dif_neg (Nat.not_lt.mpr h)

/-- A value survives in every signed type that is wider. -/
theorem holds_of_wider {S : IntType} (hS : S.signed = true) (hwidth : T.width < S.width)
    (h : T.Holds v) : S.Holds v := by
  have hpow : (2 : Int) ^ T.width ≤ 2 ^ (S.width - 1) :=
    pow_le_pow_right₀ (by decide) (by omega)
  have hpos : (0 : Int) < 2 ^ (T.width - 1) := pow_pos (by decide) _
  rw [holds_iff, two_pow_width, min] at h
  rw [two_pow_width] at hpow
  rw [holds_signed hS]
  split_ifs at h <;> omega

/-- A value survives in every type of the same signedness that is as wide. -/
theorem holds_of_le {S : IntType} (hS : S.signed = T.signed) (hwidth : T.width ≤ S.width)
    (h : T.Holds v) : S.Holds v := by
  have hpow : (2 : Int) ^ T.width ≤ 2 ^ S.width := pow_le_pow_right₀ (by decide) hwidth
  rw [holds_iff, two_pow_width, min] at *
  rw [two_pow_width] at hpow
  rw [hS]
  split_ifs at * <;> omega

theorem Widens.holds {C : IntType} (h : Widens T C) (hv : T.Holds v)
    (hsign : C.signed = false → 0 ≤ v) : C.Holds v := by
  obtain ⟨hwidth, hwider⟩ := h
  cases hC : C.signed with
  | true =>
    cases hT : T.signed with
    | true => exact holds_of_le (hC.trans hT.symm) hwidth hv
    | false => exact holds_of_wider hC (hwider hC hT) hv
  | false =>
    have hpow : (2 : Int) ^ T.width ≤ 2 ^ C.width := pow_le_pow_right₀ (by decide) hwidth
    have hunsigned := holds_convert T.unsigned v
    rw [convert_of_nonneg hv (hsign hC), holds_unsigned rfl] at hunsigned
    exact (holds_unsigned hC).mpr ⟨hsign hC, hunsigned.2.trans_le hpow⟩

theorem Widens.trans {A P C : IntType} (h : Widens A P) (h' : Widens P C) : Widens A C := by
  refine ⟨h.1.trans h'.1, fun hC hA => ?_⟩
  cases hP : P.signed with
  | true => exact (h.2 hP hA).trans_le h'.1
  | false => exact h.1.trans_lt (h'.2 hC hP)

theorem widens_promote (int : Nat) (T : IntType) : Widens T (T.promote int) := by
  by_cases hnarrow : T.width < int
  · rw [promote, dif_pos hnarrow]
    exact ⟨hnarrow.le, fun _ _ => hnarrow⟩
  · rw [promote, dif_neg hnarrow]
    exact ⟨le_rfl, fun hsigned hunsigned => absurd hsigned (by simp [hunsigned])⟩

theorem widens_usual (A B : IntType) : Widens A (usual A B) ∧ Widens B (usual A B) := by
  unfold Widens usual
  cases hA : A.signed <;> cases hB : B.signed <;> split_ifs <;> grind

theorem widens_common (int : Nat) (A B : IntType) :
    Widens A (common int A B) ∧ Widens B (common int A B) := by
  unfold common
  split_ifs with heq
  · subst heq
    have hself : Widens A A := ⟨le_rfl, fun h h' => absurd h (by simp [h'])⟩
    exact ⟨hself, hself⟩
  · obtain ⟨hleft, hright⟩ := widens_usual (A.promote int) (B.promote int)
    exact ⟨(widens_promote int A).trans hleft, (widens_promote int B).trans hright⟩

/-- A signed type meets another in an unsigned one only if that is unsigned itself and as
wide as both `int` and the signed type. Then that is where they meet. -/
theorem common_unsigned_iff (int : Nat) {A B : IntType} (hB : B.signed = true) :
    (common int A B).signed = false ↔
      A.signed = false ∧ int ≤ A.width ∧ B.width ≤ A.width := by
  unfold common usual promote
  cases hA : A.signed <;> split_ifs <;> grind

theorem common_of_unsigned {int : Nat} {A B : IntType} (hB : B.signed = true)
    (h : A.signed = false ∧ int ≤ A.width ∧ B.width ≤ A.width) : common int A B = A := by
  unfold common usual promote
  split_ifs <;> grind

theorem holds_promote (h : T.Holds v) : (T.promote int).Holds v := by
  refine (widens_promote int T).holds h (fun hunsigned => ?_)
  by_cases hnarrow : T.width < int
  · rw [(promote_of_lt hnarrow).1] at hunsigned
    cases hunsigned
  · rw [promote_of_le (Nat.not_lt.mp hnarrow)] at hunsigned
    exact ((holds_unsigned hunsigned).mp h).1

/-- An operation whose exact result is a value of the type is exact. -/
theorem arith_of_holds (h : T.Holds v) : T.arith int v = .ok v := by
  have hP : (T.promote int).Holds v := holds_promote h
  simp only [arith]
  split_ifs
  · rfl
  · rw [convert_of_holds hP]

theorem arith_bind {α : Type} {f : Int → Except Undefined α} (h : T.Holds v) :
    (T.arith int v >>= f) = f v := by
  rw [arith_of_holds h]
  rfl

/-- An operation on unsigned operands agrees with its exact result, unless the operands are
computed in `int` and overflow it. -/
theorem exists_arith (hT : T.signed = false)
    (h : T.width < int → -2 ^ (int - 1) ≤ v ∧ v < 2 ^ (int - 1)) :
    ∃ r, T.arith int v = .ok r ∧ r ≡ v [ZMOD 2 ^ T.width] := by
  unfold arith
  by_cases hnarrow : T.width < int
  · obtain ⟨hsigned, hwidth⟩ := promote_of_lt hnarrow
    have hholds : (T.promote int).Holds v := by
      rw [holds_signed hsigned, hwidth]
      exact h hnarrow
    rw [if_neg (not_not.mpr hsigned), if_pos hholds]
    exact ⟨v, rfl, Int.ModEq.refl v⟩
  · rw [promote_of_le (Nat.not_lt.mp hnarrow), if_pos (by rw [hT]; decide)]
    exact ⟨_, rfl, convert_modEq T v⟩

theorem arith_overflow (hnarrow : T.width < int) (h : 2 ^ (int - 1) ≤ v) :
    T.arith int v = .error .signedOverflow := by
  obtain ⟨hsigned, hwidth⟩ := promote_of_lt hnarrow
  have hout : ¬ (T.promote int).Holds v := by
    rw [holds_signed hsigned, hwidth]
    omega
  simp only [arith]
  rw [if_neg (not_not.mpr hsigned), if_neg hout]

/-- The difference of two unsigned values does not overflow. -/
theorem exists_arith_of_abs (hT : T.signed = false) (hlow : -2 ^ T.width < v)
    (hhigh : v < 2 ^ T.width) : ∃ r, T.arith int v = .ok r ∧ r ≡ v [ZMOD 2 ^ T.width] := by
  refine exists_arith hT (fun hnarrow => ?_)
  have hpow : (2 : Int) ^ T.width ≤ 2 ^ (int - 1) := pow_le_pow_right₀ (by decide) (by omega)
  omega

end IntType

end Lib
