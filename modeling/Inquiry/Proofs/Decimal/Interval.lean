import Inquiry.Proofs.Decimal.Scientific

/-!
# The decimals that are read as a double

A double stands for the numbers up to half-way to its neighbours, and for the middle too if its mantissa
is even. Below a power of two the neighbour is nearer. Every decimal among them is read as the double.
-/
namespace Inquiry.Decimal

theorem roundDiv_eq_of_near {num den m : Nat} (hlow : 2 * (m * den) ≤ 2 * num + den)
    (hhigh : 2 * num ≤ 2 * (m * den) + den)
    (hodd : m % 2 = 1 → 2 * (m * den) < 2 * num + den ∧ 2 * num < 2 * (m * den) + den)
    (hden : 0 < den) : roundDiv num den = m := by
  have hsplit := Nat.div_add_mod num den
  have hrest := Nat.mod_lt num hden
  obtain ⟨q, hq⟩ : ∃ q, num / den = q := ⟨_, rfl⟩
  obtain ⟨r, hr⟩ : ∃ r, num % den = r := ⟨_, rfl⟩
  rw [hq, hr] at hsplit
  rw [hr] at hrest
  have hle : m ≤ q + 1 := by
    by_contra hlt
    have hmul : (q + 2) * den ≤ m * den := Nat.mul_le_mul_right den (by omega)
    rw [Nat.add_mul, Nat.mul_comm q] at hmul
    omega
  have hge : q ≤ m := by
    by_contra hlt
    have hmul : (m + 1) * den ≤ q * den := Nat.mul_le_mul_right den (by omega)
    rw [Nat.add_mul, Nat.mul_comm q] at hmul
    omega
  have hcases : m = q ∨ m = q + 1 := by omega
  unfold roundDiv
  dsimp only
  rw [hq, hr]
  obtain rfl | rfl := hcases
  · rw [Nat.mul_comm m] at hlow hhigh hodd
    split_ifs <;> omega
  · rw [Nat.add_mul, Nat.mul_comm q] at hlow hhigh hodd
    split_ifs <;> omega

theorem excess_eq {n x : Nat} (hlt : n < 2 ^ 53 * 2 ^ x) (hle : x = 0 ∨ 2 ^ 52 * 2 ^ x ≤ n) :
    excess n = x := by
  obtain rfl | hle := hle
  · rw [pow_zero, mul_one] at hlt
    exact excess_eq_zero hlt
  · have hpos : 0 < n := (Nat.mul_pos (Nat.two_pow_pos 52) (Nat.two_pow_pos x)).trans_le hle
    rw [← pow_add] at hlt hle
    have hlog : n.log2 = 52 + x := (Nat.log2_eq_iff hpos.ne').mpr ⟨hle, by
      rwa [show 52 + x + 1 = 53 + x by omega]⟩
    unfold excess
    omega

end Inquiry.Decimal

namespace Float.Model.UnpackedFloat

open Inquiry.Decimal

theorem nearestTo_eq_carried {s : Sign} {num den m x : Nat} (hden : 0 < den)
    (hlt : num < 2 ^ 53 * (den * 2 ^ x)) (hle : x = 0 ∨ 2 ^ 52 * (den * 2 ^ x) ≤ num)
    (hround : roundDiv num (den * 2 ^ x) = m) :
    nearestTo s num den = carried s m (x - 1074) := by
  have hexcess : excess (num / den) = x := by
    refine excess_eq ?_ (hle.imp_right fun hle => ?_)
    · rwa [Nat.div_lt_iff_lt_mul hden, Nat.mul_assoc, Nat.mul_comm (2 ^ x)]
    · rwa [Nat.le_div_iff_mul_le hden, Nat.mul_assoc, Nat.mul_comm (2 ^ x)]
  rw [nearestTo, hexcess, hround]

/-- What lies nearer to a double than to its neighbours is rounded to it. The distance is counted in
quarters of the last place. -/
theorem nearestTo_eq {s : Sign} {num den m x below : Nat} (hm : 0 < m) (hlt : m < 2 ^ 53)
    (hfull : x = 0 ∨ 2 ^ 52 ≤ m) (hbelow : below = if m = 2 ^ 52 ∧ x ≠ 0 then 1 else 2)
    (hden : 0 < den) (hlow : 4 * (m * (den * 2 ^ x)) ≤ 4 * num + below * (den * 2 ^ x))
    (hhigh : 4 * num ≤ 4 * (m * (den * 2 ^ x)) + 2 * (den * 2 ^ x))
    (hodd : m % 2 = 1 → 4 * (m * (den * 2 ^ x)) < 4 * num + below * (den * 2 ^ x) ∧
      4 * num < 4 * (m * (den * 2 ^ x)) + 2 * (den * 2 ^ x)) :
    nearestTo s num den = finite s m (x - 1074) hm := by
  have hplace : 0 < den * 2 ^ x := Nat.mul_pos hden (Nat.two_pow_pos x)
  by_cases hnarrow : (m = 2 ^ 52 ∧ x ≠ 0) ∧ num < m * (den * 2 ^ x)
  · -- Below a power of two there is one more digit, and the last place is half as great.
    obtain ⟨⟨rfl, hx⟩, hunder⟩ := hnarrow
    rw [if_pos ⟨rfl, hx⟩] at hbelow
    obtain ⟨y, rfl⟩ := Nat.exists_eq_succ_of_ne_zero hx
    obtain ⟨p, hp⟩ : ∃ p, den * 2 ^ y = p := ⟨_, rfl⟩
    have hdouble : den * 2 ^ (y + 1) = 2 * p := by rw [pow_succ', Nat.mul_left_comm, hp]
    rw [hbelow, hdouble] at hlow
    rw [hdouble] at hunder
    have hround : roundDiv num (den * 2 ^ y) = 2 ^ 53 := by
      rw [hp]
      exact roundDiv_eq_of_near (by omega) (by omega) (by omega) (by omega)
    rw [nearestTo_eq_carried hden (by omega) (.inr (by omega)) hround]
    have hexponent : (y : Int) - 1074 + 1 = (y + 1 : Nat) - 1074 := by omega
    rw [← hexponent]
    rfl
  · obtain ⟨p, hp⟩ : ∃ p, den * 2 ^ x = p := ⟨_, rfl⟩
    rw [hp] at hplace hlow hhigh hodd hnarrow
    have hbelow' : below = 1 ∨ below = 2 := by
      rw [hbelow]
      split_ifs <;> simp
    have hunder : m * p + p ≤ 2 ^ 53 * p := by
      rw [← Nat.succ_mul]
      exact Nat.mul_le_mul_right p hlt
    have hle : x = 0 ∨ 2 ^ 52 * p ≤ num := by
      refine or_iff_not_imp_left.mpr fun hx => ?_
      rcases Nat.eq_or_lt_of_le (hfull.resolve_left hx) with heq | hgt
      · rw [← heq] at hnarrow
        exact not_lt.mp fun hlt => hnarrow ⟨⟨rfl, hx⟩, hlt⟩
      · have hmul : (2 ^ 52 + 1) * p ≤ m * p := Nat.mul_le_mul_right p hgt
        rcases hbelow' with rfl | rfl <;> omega
    have hround : roundDiv num (den * 2 ^ x) = m := by
      rw [hp]
      rcases hbelow' with rfl | rfl <;>
        exact roundDiv_eq_of_near (by omega) (by omega) (by omega) hplace
    rw [nearestTo_eq_carried hden (by rw [hp]; omega) (hp ▸ hle) hround, carried, dif_neg hm.ne',
      if_pos hlt]

end Float.Model.UnpackedFloat

namespace Inquiry.Decimal

open Float.Model Float.Model.UnpackedFloat
open BaseTen (finiteFloat)

namespace Binary

/-- How far a double reaches down, in quarters of its last place. -/
def reach (b : Binary) : Nat := if b.narrowBelow then 1 else 2

/-- Whether a double stands for a number. -/
def Covers (b : Binary) (v : ℚ) : Prop :=
  let w := v / 2 ^ (b.exponent - 2)
  if b.mantissa % 2 = 0 then (4 * b.mantissa : ℚ) ≤ w + b.reach ∧ w ≤ 4 * b.mantissa + 2
  else (4 * b.mantissa : ℚ) < w + b.reach ∧ w < 4 * b.mantissa + 2

/-- The same in whole numbers, when `k` quarters of the last place make `p` times the number. -/
theorem covers_iff {b : Binary} {v : ℚ} {k p : ℕ} (hp : 0 < p)
    (hw : v / 2 ^ (b.exponent - 2) * p = k) :
    b.Covers v ↔
      if b.mantissa % 2 = 0 then
        4 * (b.mantissa * p) ≤ k + b.reach * p ∧ k ≤ 4 * (b.mantissa * p) + 2 * p
      else 4 * (b.mantissa * p) < k + b.reach * p ∧ k < 4 * (b.mantissa * p) + 2 * p := by
  have hp' : (0 : ℚ) < p := Nat.cast_pos.mpr hp
  unfold Covers
  generalize v / 2 ^ (b.exponent - 2) = w at hw
  dsimp only
  split_ifs
  · refine and_congr ?_ ?_
    · rw [← mul_le_mul_iff_left₀ hp', add_mul, hw, mul_assoc]
      norm_cast
    · rw [← mul_le_mul_iff_left₀ hp', add_mul, hw, mul_assoc]
      norm_cast
  · refine and_congr ?_ ?_
    · rw [← mul_lt_mul_iff_left₀ hp', add_mul, hw, mul_assoc]
      norm_cast
    · rw [← mul_lt_mul_iff_left₀ hp', add_mul, hw, mul_assoc]
      norm_cast

theorem not_covers_zero {b : Binary} (hb : b.mantissa ≠ 0) : ¬ b.Covers 0 := by
  have hreach : b.reach ≤ 2 := by
    unfold reach
    split_ifs <;> decide
  rw [@covers_iff b 0 0 1 Nat.one_pos (by simp)]
  split_ifs <;> omega

theorem narrowBelow_ofBits {n : Nat} {b : Binary} (h : Binary.ofBits n = some b) :
    b.narrowBelow = true ↔ b.mantissa = 2 ^ 52 ∧ b.exponent ≠ -1074 := by
  unfold Binary.ofBits at h
  dsimp only at h
  split_ifs at h with h1 h2 <;> obtain rfl := Option.some.inj h
  · have hlt : n % 2 ^ 52 < 2 ^ 52 := Nat.mod_lt _ (by decide)
    simp only [Bool.false_eq_true, false_iff]
    omega
  · simp only [Bool.and_eq_true, beq_iff_eq, bne_iff_ne, ne_eq]
    omega

end Binary

theorem zpow_eq_div {a : ℚ} (ha : a ≠ 0) (n : ℤ) : a ^ n = a ^ n.toNat / a ^ (-n).toNat := by
  rw [eq_div_iff (pow_ne_zero _ ha), ← zpow_natCast, ← zpow_natCast, ← zpow_add₀ ha]
  congr 1
  omega

/-- A decimal in quarters of the last place of a double. -/
theorem quarters_eq (c x : Nat) (e : ℤ) :
    (c * 10 ^ e : ℚ) / 2 ^ ((x : ℤ) - 1074 - 2) =
      (4 * (c * 10 ^ e.toNat * 2 ^ 1074 : Nat) : ℚ) / (10 ^ (-e).toNat * 2 ^ x : Nat) := by
  obtain ⟨j, hj⟩ : ∃ j : Nat, 1074 = j := ⟨_, rfl⟩
  have hplace : (2 : ℚ) ^ ((x : ℤ) - 1074 - 2) = 2 ^ x / (4 * 2 ^ j) := by
    rw [show (x : ℤ) - 1074 - 2 = x - (2 + j : Nat) by omega, zpow_sub₀ two_ne_zero, zpow_natCast,
      zpow_natCast, pow_add]
    norm_num
  rw [hj, hplace, zpow_eq_div (by norm_num : (10 : ℚ) ≠ 0)]
  push_cast
  field_simp

/-- Doubles with the same meaning are the same: there is one "no number". -/
theorem eq_of_unpack {x y : Float} (h : x.toModel.unpack = y.toModel.unpack) : x = y := by
  obtain ⟨⟨⟨b⟩, hb⟩⟩ := x
  obtain ⟨⟨⟨c⟩, hc⟩⟩ := y
  have hbits : b = c := by
    have hb' := @pack_unpack_of_valid .binary64 b hb
    have hc' := @pack_unpack_of_valid .binary64 c hc
    exact ((hb' (by decide)).symm.trans (congrArg (pack .binary64) h)).trans (hc' (by decide))
  subst hbits
  rfl

theorem signFor_beq (s : Sign) : signFor (s == .negative) = s := by
  cases s <;> rfl

/-- What the parts of a finite double say about it. -/
theorem unpack_cases_of_ofFloat {x : Float} {b : Binary} (h : Binary.ofFloat x = some b) :
    (∃ hm, x.toModel.unpack = finite (signFor b.negative) b.mantissa b.exponent hm) ∨
      (b.mantissa = 0 ∧ x.toModel.unpack = zero (signFor b.negative)) := by
  have hparts := ofFloat_eq_binary? x
  rw [h, Option.map_some] at hparts
  obtain ⟨negative, mantissa, exponent, narrow⟩ := b
  cases hp : x.toModel.unpack with
  | finite s m e hm =>
    rw [hp] at hparts
    obtain ⟨rfl, rfl, rfl⟩ : negative = (s == .negative) ∧ mantissa = m ∧ exponent = e := by
      simpa [binary?] using hparts
    rw [signFor_beq]
    exact Or.inl ⟨hm, rfl⟩
  | zero s =>
    rw [hp] at hparts
    obtain ⟨rfl, rfl, -⟩ : negative = (s == .negative) ∧ mantissa = 0 ∧ exponent = -1074 := by
      simpa [binary?] using hparts
    rw [signFor_beq]
    exact Or.inr ⟨rfl, rfl⟩
  | infinity s =>
    rw [hp] at hparts
    cases hparts
  | notANumber =>
    rw [hp] at hparts
    cases hparts

/-- A finite double that is not zero, as its bits have it. -/
theorem unpack_of_ofFloat {x : Float} {b : Binary} (h : Binary.ofFloat x = some b)
    (hne : b.mantissa ≠ 0) :
    x.toModel.unpack = finite (signFor b.negative) b.mantissa b.exponent (Nat.pos_of_ne_zero hne) := by
  rcases unpack_cases_of_ofFloat h with ⟨_, hfinite⟩ | ⟨hzero, -⟩
  · exact hfinite
  · exact absurd hzero hne

/-- A decimal that a double stands for is read as the double. -/
theorem finiteFloat_of_covers {x : Float} {b : Binary} (h : Binary.ofFloat x = some b)
    (hne : b.mantissa ≠ 0) {c : Nat} {e : ℤ} (hcovers : b.Covers (c * 10 ^ e)) :
    finiteFloat b.negative c e = x := by
  have hunpack := unpack_of_ofFloat h hne
  have hcanonical := canonical_toModel x
  rw [hunpack] at hcanonical
  obtain ⟨hlt, hlow, hhigh, hfull⟩ := hcanonical
  obtain ⟨k, hk⟩ : ∃ k : Nat, b.exponent = k - 1074 := ⟨(b.exponent + 1074).toNat, by omega⟩
  obtain ⟨num, hnum⟩ : ∃ num, c * 10 ^ e.toNat * 2 ^ 1074 = num := ⟨_, rfl⟩
  obtain ⟨den, hden⟩ : ∃ den, 10 ^ (-e).toNat = den := ⟨_, rfl⟩
  have hpos : 0 < den := hden ▸ pow_pos (by decide) _
  have hreach : b.reach = if b.mantissa = 2 ^ 52 ∧ k ≠ 0 then 1 else 2 := by
    unfold Binary.reach
    refine if_congr ((Binary.narrowBelow_ofBits h).trans (and_congr_right fun _ => ?_)) rfl rfl
    omega
  have hnearest : nearestTo (signFor b.negative) num den =
      finite (signFor b.negative) b.mantissa b.exponent (Nat.pos_of_ne_zero hne) := by
    obtain ⟨p, hp⟩ : ∃ p, den * 2 ^ k = p := ⟨_, rfl⟩
    have hplace : 0 < p := hp ▸ Nat.mul_pos hpos (Nat.two_pow_pos k)
    have hw : (c * 10 ^ e : ℚ) / 2 ^ (b.exponent - 2) * p = (4 * num : Nat) := by
      rw [hk, quarters_eq, hnum, hden, hp, div_mul_cancel₀ _ (Nat.cast_pos.mpr hplace).ne']
      push_cast
      rfl
    rw [Binary.covers_iff hplace hw] at hcovers
    simp only [hk]
    refine nearestTo_eq (Nat.pos_of_ne_zero hne) hlt (by omega) hreach hpos ?_ ?_ ?_ <;>
      rw [hp] <;> split_ifs at hcovers <;> omega
  refine eq_of_unpack ?_
  rw [unpack_finiteFloat, hnum, hden, nearestDouble, hnearest, hunpack]
  exact unpack_pack_of_canonical ⟨hlt, hlow, hhigh, hfull⟩

/-- Zero, with its sign. -/
theorem finiteFloat_of_zero {x : Float} {b : Binary} (h : Binary.ofFloat x = some b)
    (hzero : b.mantissa = 0) (e : ℤ) : finiteFloat b.negative 0 e = x := by
  refine eq_of_unpack ?_
  rw [unpack_finiteFloat, zero_mul, zero_mul, nearestDouble_eq_zero (pow_pos (by decide) _)]
  rcases unpack_cases_of_ofFloat h with ⟨hm, _⟩ | ⟨-, hunpack⟩
  · omega
  · exact hunpack.symm

/-- A double that is not finite is one of three. -/
theorem eq_of_ofFloat_none {x : Float} (h : Binary.ofFloat x = none) :
    if x.isNaN then x = 0.0 / 0.0 else if x < 0 then x = -1.0 / 0.0 else x = 1.0 / 0.0 := by
  have hparts := ofFloat_eq_binary? x
  rw [h, Option.map_none] at hparts
  have hnan : x.isNaN = x.toModel.unpack.isNaN := rfl
  have hless : x < 0 ↔ x.toModel.unpack.lt (zero .positive) = true := by
    rw [Value.lt_iff, Value.unpack_zero]
  rw [hnan]
  simp only [hless]
  cases hp : x.toModel.unpack with
  | finite s m e hm =>
    rw [hp] at hparts
    cases hparts
  | zero s =>
    rw [hp] at hparts
    cases hparts
  | infinity s =>
    cases s with
    | negative => exact eq_of_unpack hp
    | positive => exact eq_of_unpack hp
  | notANumber => exact eq_of_unpack hp

end Inquiry.Decimal
