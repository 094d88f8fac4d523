import Inquiry.Value.Order
import Mathlib.Algebra.Order.Field.Rat
import Mathlib.Algebra.Order.Field.Power
import Mathlib.Order.WithBot
import Mathlib.Tactic.Ring
import Mathlib.Tactic.FieldSimp
import Mathlib.Tactic.Linarith
import Mathlib.Tactic.NormNum

/-!
# The order of numbers

An exact number stands for a fraction, and the order of numbers, which looks at their digits, is that
of the fractions. The two infinities lie around them.
-/
namespace Inquiry

/-- Fractions between two infinities. -/
abbrev Extended := WithBot (WithTop ℚ)

namespace Extended

def of (q : ℚ) : Extended := ((q : WithTop ℚ) : WithBot (WithTop ℚ))

@[simp] theorem of_le_of {p q : ℚ} : of p ≤ of q ↔ p ≤ q :=
  WithBot.coe_le_coe.trans WithTop.coe_le_coe

@[simp] theorem of_lt_of {p q : ℚ} : of p < of q ↔ p < q :=
  WithBot.coe_lt_coe.trans WithTop.coe_lt_coe

@[simp] theorem bot_lt_of (q : ℚ) : ⊥ < of q := WithBot.bot_lt_coe _

@[simp] theorem of_lt_top (q : ℚ) : of q < ⊤ := WithBot.coe_lt_coe.mpr (WithTop.coe_lt_top q)

end Extended

namespace Decimal

/-- One or minus one. -/
def signOf (negative : Bool) : ℚ := if negative then -1 else 1

namespace Exact

def size (x : Exact) : ℚ := x.coefficient * 10 ^ x.exponent

/-- The fraction that an exact number stands for. -/
def value (x : Exact) : ℚ := signOf x.negative * x.size

/-- Zero has no sign. -/
def Proper (x : Exact) : Prop := x.negative = true → x.coefficient ≠ 0

theorem stripZeros_size (fuel c : Nat) (e : Int) :
    ((stripZeros fuel c e).1 : ℚ) * 10 ^ (stripZeros fuel c e).2 = c * 10 ^ e := by
  induction fuel generalizing c e with
  | zero => rfl
  | succ fuel ih =>
    unfold stripZeros
    split
    · rename_i hzero
      have hc : (c : ℚ) = (c / 10 : Nat) * 10 := by
        exact_mod_cast (Nat.div_mul_cancel (Nat.dvd_of_mod_eq_zero hzero)).symm
      rw [ih, hc, zpow_add_one₀ (by norm_num)]
      ring
    · rfl

theorem stripZeros_ne_zero {c : Nat} (h : c ≠ 0) (fuel : Nat) (e : Int) :
    (stripZeros fuel c e).1 ≠ 0 := by
  intro hzero
  have hsize := stripZeros_size fuel c e
  rw [hzero, Nat.cast_zero, zero_mul] at hsize
  have hne : (c : ℚ) * 10 ^ e ≠ 0 := mul_ne_zero (by exact_mod_cast h) (zpow_ne_zero _ (by norm_num))
  exact hne hsize.symm

theorem make_value (negative : Bool) (c : Nat) (e : Int) :
    (make negative c e).value = signOf negative * (c * 10 ^ e) := by
  unfold make
  split
  · rename_i hzero
    simp [value, size, hzero]
  · exact congrArg (signOf negative * ·) (stripZeros_size _ c e)

theorem make_proper (negative : Bool) (c : Nat) (e : Int) : (make negative c e).Proper := by
  unfold make
  split
  · exact fun h => absurd h Bool.false_ne_true
  · rename_i hne
    exact fun _ => stripZeros_ne_zero hne _ e

theorem ofInt_value (n : Int) : (ofInt n).value = n := by
  rw [ofInt, make_value, zpow_zero, mul_one, signOf]
  by_cases h : n < 0
  · rw [decide_eq_true h, if_pos rfl, Nat.cast_natAbs, abs_of_neg h]
    push_cast
    ring
  · rw [decide_eq_false h, if_neg Bool.false_ne_true, Nat.cast_natAbs, abs_of_nonneg (by omega),
      one_mul]

theorem ofBinary_value (b : Binary) :
    (ofBinary b).value = signOf b.negative * (b.mantissa * 2 ^ b.exponent) := by
  unfold ofBinary
  split
  · rename_i h
    obtain ⟨n, hn⟩ := Int.eq_ofNat_of_zero_le h
    rw [make_value, Binary.num, hn, zpow_zero, mul_one, Int.toNat_natCast, zpow_natCast]
    push_cast
    rfl
  · rename_i h
    obtain ⟨n, hn⟩ : ∃ n : Nat, b.exponent = -n := ⟨b.exponent.natAbs, by omega⟩
    rw [make_value, hn, Int.natAbs_neg, Int.natAbs_natCast, zpow_neg, zpow_neg, zpow_natCast,
      zpow_natCast]
    push_cast
    rw [show (10 : ℚ) = 5 * 2 by norm_num, mul_pow]
    field_simp

theorem length_digitsOf_pos (n : Nat) : 0 < (digitsOf n).length := Nat.length_toDigits_pos

theorem lt_pow_length_digitsOf (n : Nat) : n < 10 ^ (digitsOf n).length :=
  (Nat.length_toDigits_le_iff (by norm_num) (length_digitsOf_pos n)).mp le_rfl

theorem pow_length_digitsOf_le {n : Nat} (h : n ≠ 0) : 10 ^ ((digitsOf n).length - 1) ≤ n := by
  rcases Nat.eq_zero_or_pos ((digitsOf n).length - 1) with hzero | hpos
  · rw [hzero, pow_zero]
    omega
  · by_contra hlt
    have hle := (Nat.length_toDigits_le_iff (b := 10) (by norm_num) hpos).mpr (not_le.mp hlt)
    change (digitsOf n).length ≤ _ at hle
    omega

theorem size_lt (x : Exact) : x.size < 10 ^ x.magnitude := by
  unfold size magnitude
  rw [zpow_add₀ (by norm_num), mul_comm, zpow_natCast]
  have h : (x.coefficient : ℚ) < 10 ^ (digitsOf x.coefficient).length := by
    exact_mod_cast lt_pow_length_digitsOf x.coefficient
  exact mul_lt_mul_of_pos_left h (by positivity)

theorem le_size {x : Exact} (h : x.coefficient ≠ 0) : (10 : ℚ) ^ (x.magnitude - 1) ≤ x.size := by
  have hpos := length_digitsOf_pos x.coefficient
  have hexponent : x.magnitude - 1 = x.exponent + ((digitsOf x.coefficient).length - 1 : Nat) := by
    unfold magnitude
    omega
  have hle : (10 : ℚ) ^ ((digitsOf x.coefficient).length - 1) ≤ x.coefficient := by
    exact_mod_cast pow_length_digitsOf_le h
  rw [hexponent, zpow_add₀ (by norm_num), zpow_natCast, size, mul_comm]
  exact mul_le_mul_of_nonneg_right hle (by positivity)

theorem size_pos {x : Exact} (h : x.coefficient ≠ 0) : 0 < x.size := by
  have hpos : (0 : ℚ) < x.coefficient := by exact_mod_cast Nat.pos_of_ne_zero h
  exact mul_pos hpos (zpow_pos (by norm_num) _)

theorem size_eq_zero {x : Exact} (h : x.coefficient = 0) : x.size = 0 := by
  rw [size, h, Nat.cast_zero, zero_mul]

/-- Coefficients that are brought to one exponent. -/
theorem aligned_size (x : Exact) {e : Int} (h : e ≤ x.exponent) :
    x.size = (x.coefficient * 10 ^ (x.exponent - e).toNat : Nat) * (10 : ℚ) ^ e := by
  obtain ⟨k, hk⟩ : ∃ k : Nat, x.exponent - e = k := ⟨(x.exponent - e).toNat, by omega⟩
  rw [size, hk, Int.toNat_natCast, show x.exponent = e + k by omega, zpow_add₀ (by norm_num),
    zpow_natCast]
  push_cast
  ring

theorem size_lt_of_magnitude_lt {x y : Exact} (hy : y.coefficient ≠ 0)
    (h : x.magnitude < y.magnitude) : x.size < y.size :=
  calc x.size < (10 : ℚ) ^ x.magnitude := x.size_lt
    _ ≤ 10 ^ (y.magnitude - 1) := zpow_le_zpow_right₀ (by norm_num) (by omega)
    _ ≤ y.size := le_size hy

theorem below_iff (x y : Exact) : below x y = true ↔ x.size < y.size := by
  unfold below
  split
  · rename_i hzero
    rw [decide_eq_true_iff]
    rcases hzero with hx | hy
    · rw [size_eq_zero hx]
      by_cases hy : y.coefficient = 0
      · simp [hx, hy, size_eq_zero hy]
      · simp [hx, hy, size_pos hy]
    · rw [size_eq_zero hy]
      have hx : 0 ≤ x.size := mul_nonneg (Nat.cast_nonneg _) (zpow_nonneg (by norm_num) _)
      simp [hy, hx.not_gt]
  · rename_i hne
    obtain ⟨hx, hy⟩ := not_or.mp hne
    split
    · rw [decide_eq_true_iff, aligned_size x (min_le_left x.exponent y.exponent),
        aligned_size y (min_le_right x.exponent y.exponent),
        mul_lt_mul_iff_left₀ (zpow_pos (by norm_num) _), Nat.cast_lt]
    · rename_i hmagnitude
      rw [decide_eq_true_iff]
      rcases lt_or_gt_of_ne hmagnitude with hlt | hgt
      · exact iff_of_true hlt (size_lt_of_magnitude_lt hy hlt)
      · exact iff_of_false hgt.not_gt (size_lt_of_magnitude_lt hx hgt).not_gt

theorem less_iff {x y : Exact} (hx : x.Proper) (hy : y.Proper) :
    x.less y = true ↔ x.value < y.value := by
  have hsize (z : Exact) : 0 ≤ z.size := mul_nonneg (Nat.cast_nonneg _) (zpow_nonneg (by norm_num) _)
  unfold less value
  cases hnx : x.negative with
  | false =>
    cases hny : y.negative with
    | false =>
      simp [signOf, below_iff]
    | true =>
      have hle := hsize x
      have hpos := size_pos (hy hny)
      simp only [signOf, Bool.false_eq_true, if_false, if_true, one_mul, neg_one_mul, false_iff]
      linarith
  | true =>
    cases hny : y.negative with
    | false =>
      have hle := hsize y
      have hpos := size_pos (hx hnx)
      simp only [signOf, Bool.false_eq_true, if_false, if_true, one_mul, neg_one_mul, true_iff]
      linarith
    | true =>
      simp [signOf, below_iff]

end Exact

end Decimal

namespace Value

open Decimal

namespace Place

def rank : Place → Extended
  | .bottom => ⊥
  | .at x => .of x.value
  | .top => ⊤

def Proper : Place → Prop
  | .at x => x.Proper
  | _ => True

theorem less_iff {p q : Place} (hp : p.Proper) (hq : q.Proper) :
    p.less q = true ↔ p.rank < q.rank := by
  cases p with
  | «at» x =>
    cases q with
    | «at» y => exact (Exact.less_iff hp hq).trans Extended.of_lt_of.symm
    | bottom => simp [less, rank]
    | top => simp [less, rank]
  | bottom => cases q <;> simp [less, rank]
  | top => cases q <;> simp [less, rank]

end Place

theorem baseTen?_proper {v : Value} {x : Exact} (h : v.baseTen? = some x) : x.Proper := by
  cases v with
  | bool b => exact Option.some.inj h ▸ Exact.make_proper _ _ _
  | int n => exact Option.some.inj h ▸ Exact.make_proper _ _ _
  | int64 n => exact Option.some.inj h ▸ Exact.make_proper _ _ _
  | float f =>
    obtain ⟨b, -, rfl⟩ := Option.map_eq_some_iff.mp h
    unfold Exact.ofBinary
    split <;> exact Exact.make_proper _ _ _
  | decimal d =>
    cases d with
    | finite n c e => exact Option.some.inj h ▸ Exact.make_proper _ _ _
    | infinite n => cases h
    | notANumber n s p => cases h
  | _ => cases h

theorem place?_proper {v : Value} {p : Place} (h : v.place? = some p) : p.Proper := by
  unfold place? at h
  split at h
  · rename_i hx
    exact Option.some.inj h ▸ baseTen?_proper hx
  · exact Option.some.inj h ▸ trivial
  · exact Option.some.inj h ▸ trivial
  · cases h

/-- Where a number lies; what is no number lies nowhere. -/
def rank? (v : Value) : Option Extended := v.place?.map Place.rank

/-- A number comes before another one just if both have their places and it lies below. -/
theorem less_eq_ok_true_iff {a b : Value} (ha : a.isNumber = true) (hb : b.isNumber = true) :
    less a b = .ok true ↔ ∃ p q, a.rank? = some p ∧ b.rank? = some q ∧ p < q := by
  have hless : less a b = numberLess a b := by
    unfold less
    rw [ha, hb]
    rfl
  rw [hless, numberLess, rank?, rank?]
  cases hp : a.place? with
  | none =>
    simp only [Option.map_none, reduceCtorEq, false_and, exists_false, iff_false]
    split <;> simp
  | some p =>
    cases hq : b.place? with
    | none =>
      simp only [Option.map_none, reduceCtorEq, false_and, and_false, exists_false, iff_false]
      split <;> simp
    | some q =>
      rw [Except.ok.injEq, Place.less_iff (place?_proper hp) (place?_proper hq)]
      simp

/-- Only decimals can be without an order. -/
theorem less_isOk {a b : Value} (ha : a.isNumber = true) (hb : b.isNumber = true)
    (ha' : a.isDecimal = false) (hb' : b.isDecimal = false) : ∃ answer, less a b = .ok answer := by
  have hless : less a b = numberLess a b := by
    unfold less
    rw [ha, hb]
    rfl
  rw [hless, numberLess, ha', hb']
  split
  · exact ⟨_, rfl⟩
  · exact ⟨_, rfl⟩

end Value

end Inquiry
