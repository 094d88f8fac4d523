import Inquiry.Decimal.BaseTen
import Inquiry.Proofs.Decimal.Integers
import Inquiry.Proofs.Decimal.Quotients

/-!
# Decimals as doubles

A coefficient with a power of ten is read as the double nearest to it, whichever way it is computed: with
exact powers of ten, with all digits at once, or by its size alone.
-/
namespace Float.Model.UnpackedFloat

open Inquiry Inquiry.Decimal

theorem exponent_le_of_units {s : Sign} {m : Nat} {e : Int} {h : 0 < m}
    (hc : (finite s m e h).Canonical) (hone : 2 ^ 1074 ≤ m * 2 ^ (e + 1074).toNat) :
    -52 ≤ e ∧ 2 ^ 52 ≤ m := by
  obtain ⟨hlt, hlow, -, hfull⟩ := hc
  have hpow : 2 ^ 1074 < 2 ^ (53 + (e + 1074).toNat) := by
    rw [pow_add]
    exact hone.trans_lt (Nat.mul_lt_mul_of_pos_right hlt (Nat.two_pow_pos _))
  have hlog := (Nat.pow_lt_pow_iff_right Nat.one_lt_two).mp hpow
  omega

theorem finite_of_units {p : UnpackedFloat} {n : Nat} (h : p.units = n) (hn : n ≠ 0) :
    ∃ m e hm, p = finite .positive m e hm ∧ m * 2 ^ (e + 1074).toNat = n := by
  cases p with
  | finite s m e hm =>
    cases s with
    | positive => exact ⟨m, e, hm, rfl, Int.ofNat.inj h⟩
    | negative =>
      have hneg : -((m * 2 ^ (e + 1074).toNat : Nat) : Int) = n := h
      omega
  | _ =>
    change (0 : Int) = n at h
    omega

theorem mul_units {p q : UnpackedFloat} (hp : p.Canonical) (hq : q.Canonical) {m n : Nat}
    (hm : p.units = m) (hn : q.units = n) (hone : 2 ^ 1074 ≤ m) (hone' : 2 ^ 1074 ≤ n) :
    mul .binary64 p q = nearestTo .positive (m * n) (2 ^ 1074) := by
  have hpos : 0 < 2 ^ 1074 := pow_pos Nat.two_pos 1074
  obtain ⟨a, e, ha, rfl, rfl⟩ := finite_of_units hm (hpos.trans_le hone).ne'
  obtain ⟨b, f, hb, rfl, rfl⟩ := finite_of_units hn (hpos.trans_le hone').ne'
  obtain ⟨he, ha'⟩ := exponent_le_of_units hp hone
  obtain ⟨hf, -⟩ := exponent_le_of_units hq hone'
  obtain ⟨j, hj⟩ : ∃ j, (e + f + 1074).toNat = j := ⟨_, rfl⟩
  have hfull : j = 0 ∨ 2 ^ 52 ≤ a * b := .inr (ha'.trans (Nat.le_mul_of_pos_right a hb))
  rw [mul_eq (j := j) (by omega) hfull]
  refine nearestTo_congr _ Nat.one_pos hpos ?_
  have hexponents : (e + 1074).toNat + (f + 1074).toNat = j + 1074 := by omega
  calc a * b * 2 ^ j * 2 ^ 1074 = a * b * 2 ^ (j + 1074) := by rw [mul_assoc (a * b), ← pow_add]
    _ = a * b * (2 ^ (e + 1074).toNat * 2 ^ (f + 1074).toNat) := by rw [← hexponents, pow_add]
    _ = a * 2 ^ (e + 1074).toNat * (b * 2 ^ (f + 1074).toNat) * 1 := by
      rw [Nat.mul_one, Nat.mul_mul_mul_comm]

theorem div_units {p q : UnpackedFloat} (hp : p.Canonical) (hq : q.Canonical) {m n : Nat}
    (hm : p.units = m) (hn : q.units = n) (hone : 2 ^ 1074 ≤ m) (hne : n ≠ 0) :
    div .binary64 p q = nearestTo .positive (m * 2 ^ 1074) n := by
  have hpos : 0 < 2 ^ 1074 := pow_pos Nat.two_pos 1074
  obtain ⟨a, e, ha, rfl, rfl⟩ := finite_of_units hm (hpos.trans_le hone).ne'
  obtain ⟨b, f, hb, rfl, rfl⟩ := finite_of_units hn hne
  obtain ⟨he, -⟩ := exponent_le_of_units hp hone
  obtain ⟨-, hlow, hhigh, -⟩ := hq
  obtain ⟨j, hj⟩ : ∃ j, (e - f + 1074).toNat = j := ⟨_, rfl⟩
  rw [div_eq (j := j) (by omega)]
  refine nearestTo_congr _ hb (Nat.mul_pos hb (Nat.two_pow_pos _)) ?_
  have hexponents : j + (f + 1074).toNat = (e + 1074).toNat + 1074 := by omega
  calc a * 2 ^ j * (b * 2 ^ (f + 1074).toNat) = a * b * 2 ^ (j + (f + 1074).toNat) := by
        rw [Nat.mul_mul_mul_comm, ← pow_add]
    _ = a * b * (2 ^ (e + 1074).toNat * 2 ^ 1074) := by rw [hexponents, pow_add]
    _ = a * 2 ^ (e + 1074).toNat * 2 ^ 1074 * b := by
      rw [mul_assoc a b, mul_comm b, ← mul_assoc, ← mul_assoc]

theorem nearestTo_bounds (num den : Nat) :
    roundDiv num (den * 2 ^ excess (num / den)) ≤ 2 ^ 53 ∧
      (excess (num / den) ≠ 0 → 2 ^ 52 ≤ roundDiv num (den * 2 ^ excess (num / den))) := by
  constructor
  · refine (roundDiv_le_succ _ _).trans ?_
    rw [← Nat.div_div_eq_div_mul, Nat.succ_le_iff, Nat.div_lt_iff_lt_mul (Nat.two_pow_pos _)]
    exact lt_two_pow_excess _
  · intro hne
    refine le_trans ?_ (div_le_roundDiv _ _)
    rw [← Nat.div_div_eq_div_mul, Nat.le_div_iff_mul_le (Nat.two_pow_pos _)]
    exact two_pow_excess_le hne

/-- What the bits of the double nearest to a quotient of units stand for. -/
def nearestDouble (s : Sign) (num den : Nat) : UnpackedFloat :=
  unpack .binary64 (pack .binary64 (nearestTo s num den))

theorem nearestDouble_eq (s : Sign) (num den : Nat) :
    nearestDouble s num den =
      if roundDiv num (den * 2 ^ excess (num / den)) * 2 ^ excess (num / den) < unitsBeyond then
        nearestTo s num den
      else infinity s :=
  unpack_pack_carried (nearestTo_bounds num den).1 (nearestTo_bounds num den).2

theorem neg_carried (s : Sign) (r : Nat) (e : Int) : (carried s r e).neg = carried (-s) r e := by
  unfold carried
  split_ifs <;> rfl

theorem nearestDouble_neg (num den : Nat) :
    unpack .binary64 (pack .binary64 (nearestDouble .positive num den).neg) =
      nearestDouble .negative num den := by
  rw [nearestDouble_eq, nearestDouble_eq]
  split_ifs with h
  · rw [nearestTo, neg_carried]
    exact (nearestDouble_eq .negative num den).trans (if_pos h)
  · exact unpack_packedInfinity .negative

end Float.Model.UnpackedFloat

namespace Inquiry.Decimal

open Float.Model Float.Model.UnpackedFloat
open BaseTen (finiteFloat)

theorem units_powersOfTen (k : Fin 23) :
    (Float.exactlyRepresentablePowersOfTen[k]).toModel.unpack.units = 10 ^ k.val * 2 ^ 1074 := by
  revert k
  decide +kernel

theorem natCast_units_powersOfTen (k : Fin 23) :
    (Float.exactlyRepresentablePowersOfTen[k]).toModel.unpack.units =
      (10 ^ k.val * 2 ^ 1074 : Nat) := by
  rw [units_powersOfTen, Nat.cast_mul, Nat.cast_pow, Nat.cast_pow, Nat.cast_ofNat, Nat.cast_ofNat]

theorem rounded_mul_two_pow {m j : Nat} (hm : m < 2 ^ 53) (hj : j ≤ greatestExcess) :
    rounded (m * 2 ^ j) = ofUnits (m * 2 ^ j) := by
  have hdigits : toDigits53 (m * 2 ^ j) = m * 2 ^ j := toDigits53_mul_two_pow hm j
  have hrounded := rounded_apply .positive (m * 2 ^ j)
  rw [roundedWith, hdigits, if_pos (lt_unitsBeyond hm hj), apply_mul_two_pow] at hrounded
  exact hrounded

theorem units_toFloat {m : Nat} (h : m < 2 ^ 53) :
    m.toUInt64.toFloat.toModel.unpack.units = m * 2 ^ 1074 := by
  have hnat : m.toUInt64.toNat = m := UInt64.toNat_ofNat_of_lt' (h.trans (by decide))
  have hplace : m.toUInt64.toFloat.toModel.unpack.place? = some (ofUnits (m * 2 ^ 1074)) := by
    have hnormalize := place?_normalize m 1074
    rw [rounded_mul_two_pow h (by decide)] at hnormalize
    change (unpack .binary64 (pack .binary64
      (normalize .binary64 m.toUInt64.toNat 0 .positive))).place? = _
    rw [hnat]
    exact hnormalize
  have hunits := (finite_of_place? hplace (ofUnits_ne_bot _) (ofUnits_ne_top _)).2
  exact le_antisymm (ofUnits_le_ofUnits.mp hunits.ge) (ofUnits_le_ofUnits.mp hunits.le)

theorem canonical_toModel (x : Float) : x.toModel.unpack.Canonical := unpack_canonical _

section Table

variable {c : Nat} {x : Float} (hc : c ≠ 0) (hx : x.toModel.unpack.units = (c * 2 ^ 1074 : Nat))
  (k : Fin 23)
include hc hx

theorem unpack_div_powerOfTen :
    (x / Float.exactlyRepresentablePowersOfTen[k]).toModel.unpack =
      nearestDouble .positive (c * 2 ^ 1074) (10 ^ k.val) := by
  have hunit : 0 < 2 ^ 1074 := pow_pos Nat.two_pos 1074
  have hten : 0 < 10 ^ k.val := pow_pos (by decide) k.val
  have hy := natCast_units_powersOfTen k
  generalize Float.exactlyRepresentablePowersOfTen[k] = y at hy ⊢
  have hdiv := div_units (canonical_toModel x) (canonical_toModel y) hx hy
    (Nat.le_mul_of_pos_left _ (Nat.pos_of_ne_zero hc)) (Nat.mul_pos hten hunit).ne'
  rw [nearestTo_mul_right _ _ _ hunit] at hdiv
  exact congrArg (fun p => unpack .binary64 (pack .binary64 p)) hdiv

theorem unpack_mul_powerOfTen :
    (x * Float.exactlyRepresentablePowersOfTen[k]).toModel.unpack =
      nearestDouble .positive (c * 10 ^ k.val * 2 ^ 1074) 1 := by
  have hunit : 0 < 2 ^ 1074 := pow_pos Nat.two_pos 1074
  have hten : 0 < 10 ^ k.val := pow_pos (by decide) k.val
  have hy := natCast_units_powersOfTen k
  generalize Float.exactlyRepresentablePowersOfTen[k] = y at hy ⊢
  have hmul := mul_units (canonical_toModel x) (canonical_toModel y) hx hy
    (Nat.le_mul_of_pos_left _ (Nat.pos_of_ne_zero hc)) (Nat.le_mul_of_pos_left _ hten)
  have hunits : nearestTo .positive (c * 2 ^ 1074 * (10 ^ k.val * 2 ^ 1074)) (2 ^ 1074) =
      nearestTo .positive (c * 10 ^ k.val * 2 ^ 1074) 1 := by
    refine nearestTo_congr _ hunit Nat.one_pos ?_
    rw [Nat.mul_one, Nat.mul_mul_mul_comm, ← Nat.mul_assoc]
  rw [hunits] at hmul
  exact congrArg (fun p => unpack .binary64 (pack .binary64 p)) hmul

end Table

theorem ofScientific_above {c k : Nat} (hc : c ≠ 0) (hk : k ≤ 2048) :
    UnpackedFloat.ofScientific .binary64 c k = nearestTo .positive (c * 10 ^ k * 2 ^ 1074) 1 := by
  have hbits : (2 : Int) ^ Format.binary64.exponentBits = 2048 := rfl
  have hfull : 2 ^ 52 ≤ c <<< 53 * 10 ^ k := by
    rw [Nat.shiftLeft_eq]
    calc 2 ^ 52 ≤ 2 ^ 53 := by norm_num
      _ ≤ c * 2 ^ 53 := Nat.le_mul_of_pos_left _ (Nat.pos_of_ne_zero hc)
      _ ≤ c * 2 ^ 53 * 10 ^ k := Nat.le_mul_of_pos_right _ (pow_pos (by decide) k)
  -- The exponents get names, so that nothing writes the powers out.
  obtain ⟨j, hj⟩ : ∃ j, 1021 = j := ⟨_, rfl⟩
  have hunits : c <<< 53 * 10 ^ k * 2 ^ j = c * 10 ^ k * 2 ^ 1074 := by
    rw [Nat.shiftLeft_eq, Nat.mul_right_comm c, Nat.mul_assoc, ← pow_add, ← hj]
  unfold UnpackedFloat.ofScientific
  rw [dif_neg hc, hbits, if_neg (by omega), if_neg (by omega), if_pos (by omega), ← hunits]
  exact mul_eq (by rw [mantissaBits_binary64, ← hj]; rfl) (.inr hfull)

theorem ofScientific_below {c k : Nat} (hc : c ≠ 0) (hk : k ≠ 0) (hk' : k ≤ 2048 + c.log2) :
    UnpackedFloat.ofScientific .binary64 c (-k) = nearestTo .positive (c * 2 ^ 1074) (10 ^ k) := by
  have hbits : (2 : Int) ^ Format.binary64.exponentBits = 2048 := rfl
  have hk'' : (-(-(k : Int))).toNat = k := by omega
  obtain ⟨j, hj⟩ : ∃ j, 1074 = j := ⟨_, rfl⟩
  unfold UnpackedFloat.ofScientific
  rw [dif_neg hc, hbits, if_neg (by omega), if_neg (by omega), if_neg (by omega), hj]
  simp only [hk'']
  exact div_eq (by rw [← hj]; rfl)

theorem unpack_ofScientific_above {c k : Nat} (hc : c ≠ 0) (hk : k ≤ 2048) :
    (Float.ofScientific c false k).toModel.unpack =
      nearestDouble .positive (c * 10 ^ k * 2 ^ 1074) 1 := by
  unfold Float.ofScientific
  by_cases hfast : c < 2 ^ 53 ∧ k ≤ 22
  · rw [dif_pos hfast]
    have hx : c.toUInt64.toFloat.toModel.unpack.units = (c * 2 ^ 1074 : Nat) := by
      rw [units_toFloat hfast.1, Nat.cast_mul, Nat.cast_pow, Nat.cast_ofNat]
    exact unpack_mul_powerOfTen hc hx ⟨k, by omega⟩
  · rw [dif_neg hfast]
    exact congrArg (fun p => unpack .binary64 (pack .binary64 p)) (ofScientific_above hc hk)

theorem unpack_ofScientific_below {c k : Nat} (hc : c ≠ 0) (hk : k ≠ 0) (hk' : k ≤ 2048 + c.log2) :
    (Float.ofScientific c true k).toModel.unpack =
      nearestDouble .positive (c * 2 ^ 1074) (10 ^ k) := by
  unfold Float.ofScientific
  by_cases hfast : c < 2 ^ 53 ∧ k ≤ 22
  · rw [dif_pos hfast]
    have hx : c.toUInt64.toFloat.toModel.unpack.units = (c * 2 ^ 1074 : Nat) := by
      rw [units_toFloat hfast.1, Nat.cast_mul, Nat.cast_pow, Nat.cast_ofNat]
    exact unpack_div_powerOfTen hc hx ⟨k, by omega⟩
  · rw [dif_neg hfast]
    obtain ⟨n, rfl⟩ := Nat.exists_eq_succ_of_ne_zero hk
    exact congrArg (fun p => unpack .binary64 (pack .binary64 p)) (ofScientific_below hc hk hk')

theorem two_pow_le_ten_pow (k : Nat) : 2 ^ (3 * k) ≤ 10 ^ k := by
  rw [pow_mul]
  exact Nat.pow_le_pow_left (by decide) k

theorem length_digitsOf_le_log2 {c : Nat} (hc : c ≠ 0) : (digitsOf c).length ≤ c.log2 + 1 := by
  have hlog : (digitsOf c).length - 1 ≤ c.log2 :=
    (Nat.le_log2 hc).mpr ((Nat.pow_le_pow_left (by decide) _).trans (Exact.pow_length_digitsOf_le hc))
  omega

theorem nearestDouble_eq_zero {s : Sign} {num den : Nat} (h : 2 * num < den) :
    nearestDouble s num den = zero s := by
  have hdiv : num / den = 0 := Nat.div_eq_of_lt (by omega)
  have hround : roundDiv num den = 0 := by
    unfold roundDiv
    rw [hdiv, Nat.mod_eq_of_lt (by omega)]
    exact if_pos h
  have hnearest : nearestTo s num den = zero s := by
    unfold nearestTo
    rw [hdiv, show excess 0 = 0 from rfl, pow_zero, mul_one, hround]
    rfl
  rw [nearestDouble, hnearest, unpack_pack_zero]

theorem nearestDouble_eq_infinity {s : Sign} {num den : Nat} (hden : 0 < den)
    (h : unitsBeyond * den ≤ num) : nearestDouble s num den = infinity s := by
  have hdiv : unitsBeyond ≤ num / den := (Nat.le_div_iff_mul_le hden).mpr h
  rw [nearestDouble_eq, if_neg]
  rw [not_lt]
  obtain ⟨hround, hfull⟩ := nearestTo_bounds num den
  unfold unitsBeyond at hdiv ⊢
  generalize greatestExcess = t at hdiv ⊢
  rw [← pow_add] at hdiv ⊢
  have hpos : 0 < num / den := (Nat.two_pow_pos _).trans_le hdiv
  have hlog : 53 + t ≤ (num / den).log2 := (Nat.le_log2 hpos.ne').mpr hdiv
  obtain ⟨x, hx⟩ : ∃ x, excess (num / den) = x := ⟨_, rfl⟩
  have hx' : t + 1 ≤ x := by
    unfold excess at hx
    omega
  rw [hx] at hfull ⊢
  calc 2 ^ (53 + t) ≤ 2 ^ (52 + x) := Nat.pow_le_pow_right Nat.two_pos (by omega)
    _ = 2 ^ 52 * 2 ^ x := pow_add ..
    _ ≤ roundDiv num (den * 2 ^ x) * 2 ^ x := Nat.mul_le_mul_right _ (hfull (by omega))

theorem unpack_neg (x : Float) :
    (-x).toModel.unpack = unpack .binary64 (pack .binary64 x.toModel.unpack.neg) := rfl

/-- A decimal far below the least double. -/
theorem nearestDouble_of_tiny {s : Sign} {c : Nat} {e : Int} (h : e + (digitsOf c).length < -400) :
    nearestDouble s (c * 10 ^ e.toNat * 2 ^ 1074) (10 ^ (-e).toNat) = zero s := by
  refine nearestDouble_eq_zero ?_
  obtain ⟨k, hk⟩ : ∃ k, (-e).toNat = (digitsOf c).length + 400 + k := 
    ⟨(-e).toNat - (digitsOf c).length - 400, by omega⟩
  obtain ⟨j, hj⟩ : ∃ j, 1074 = j := ⟨_, rfl⟩
  have hpow : 2 * 2 ^ j ≤ 10 ^ 400 * 10 ^ k := by
    rw [← pow_succ', ← pow_add]
    exact (Nat.pow_le_pow_right Nat.two_pos (by omega)).trans (two_pow_le_ten_pow _)
  rw [show e.toNat = 0 by omega, pow_zero, mul_one, hk, hj]
  calc 2 * (c * 2 ^ j) = c * (2 * 2 ^ j) := by rw [Nat.mul_left_comm]
    _ ≤ c * (10 ^ 400 * 10 ^ k) := Nat.mul_le_mul_left _ hpow
    _ < 10 ^ (digitsOf c).length * (10 ^ 400 * 10 ^ k) :=
      Nat.mul_lt_mul_of_pos_right (Exact.lt_pow_length_digitsOf c)
        (Nat.mul_pos (pow_pos (by decide) _) (pow_pos (by decide) _))
    _ = 10 ^ ((digitsOf c).length + 400 + k) := by rw [pow_add, pow_add, mul_assoc]

theorem unitsBeyond_le {k : Nat} (hk : 400 ≤ k) : unitsBeyond ≤ 10 ^ k * 2 ^ 1074 := by
  obtain ⟨t, ht⟩ : ∃ t, greatestExcess = t := ⟨_, rfl⟩
  obtain ⟨j, hj⟩ : ∃ j, 1074 = j := ⟨_, rfl⟩
  have ht' : t = 2045 := ht.symm
  rw [unitsBeyond, ht, hj]
  calc 2 ^ 53 * 2 ^ t = 2 ^ (53 + t) := (pow_add ..).symm
    _ ≤ 2 ^ (3 * k + j) := Nat.pow_le_pow_right Nat.two_pos (by omega)
    _ = 2 ^ (3 * k) * 2 ^ j := pow_add ..
    _ ≤ 10 ^ k * 2 ^ j := Nat.mul_le_mul_right _ (two_pow_le_ten_pow k)

/-- A decimal far beyond the greatest double. -/
theorem nearestDouble_of_huge {s : Sign} {c : Nat} {e : Int} (hc : c ≠ 0)
    (h : 400 < e + (digitsOf c).length) :
    nearestDouble s (c * 10 ^ e.toNat * 2 ^ 1074) (10 ^ (-e).toNat) = infinity s := by
  refine nearestDouble_eq_infinity (pow_pos (by decide) _) ?_
  have hlength : 0 < (digitsOf c).length := Exact.length_digitsOf_pos c
  obtain ⟨k, hk⟩ : ∃ k, 400 = k := ⟨_, rfl⟩
  have hlow : 10 ^ k * 10 ^ (-e).toNat ≤ c * 10 ^ e.toNat := by
    calc 10 ^ k * 10 ^ (-e).toNat = 10 ^ (k + (-e).toNat) := (pow_add ..).symm
      _ ≤ 10 ^ ((digitsOf c).length - 1 + e.toNat) := Nat.pow_le_pow_right (by decide) (by omega)
      _ = 10 ^ ((digitsOf c).length - 1) * 10 ^ e.toNat := pow_add ..
      _ ≤ c * 10 ^ e.toNat := Nat.mul_le_mul_right _ (Exact.pow_length_digitsOf_le hc)
  calc unitsBeyond * 10 ^ (-e).toNat ≤ 10 ^ k * 2 ^ 1074 * 10 ^ (-e).toNat :=
        Nat.mul_le_mul_right _ (unitsBeyond_le hk.le)
    _ = 10 ^ k * 10 ^ (-e).toNat * 2 ^ 1074 := Nat.mul_right_comm ..
    _ ≤ c * 10 ^ e.toNat * 2 ^ 1074 := Nat.mul_le_mul_right _ hlow

/-- A decimal is read as the double nearest to it. -/
theorem unpack_finiteFloat (negative : Bool) (c : Nat) (e : Int) :
    (finiteFloat negative c e).toModel.unpack = nearestDouble (signFor negative)
      (c * 10 ^ e.toNat * 2 ^ 1074) (10 ^ (-e).toNat) := by
  have hpositive : (finiteFloat false c e).toModel.unpack = nearestDouble .positive
      (c * 10 ^ e.toNat * 2 ^ 1074) (10 ^ (-e).toNat) := by
    unfold finiteFloat
    dsimp only
    rw [if_neg Bool.false_ne_true]
    split_ifs with hsmall hlarge
    · have hzero : (0.0 : Float).toModel.unpack = zero .positive := rfl
      rw [hzero]
      obtain rfl | htiny := hsmall
      · rw [zero_mul, zero_mul, nearestDouble_eq_zero (pow_pos (by decide) _)]
      · rw [nearestDouble_of_tiny htiny]
    · have hinfinity : (1.0 / 0.0 : Float).toModel.unpack = infinity .positive := rfl
      rw [hinfinity, nearestDouble_of_huge (fun hc => hsmall (.inl hc)) hlarge]
    · have hc : c ≠ 0 := fun hc => hsmall (.inl hc)
      have hlength := length_digitsOf_le_log2 hc
      have hsize : ¬ e + (digitsOf c).length < -400 := fun h => hsmall (.inr h)
      by_cases he : e < 0
      · rw [decide_eq_true he, unpack_ofScientific_below hc (by omega) (by omega),
          show e.toNat = 0 by omega, pow_zero, mul_one, show (-e).toNat = e.natAbs by omega]
      · rw [decide_eq_false he, unpack_ofScientific_above hc (by omega),
          show (-e).toNat = 0 by omega, pow_zero, show e.toNat = e.natAbs by omega]
  cases negative with
  | false => exact hpositive
  | true =>
    have hneg : finiteFloat true c e = -finiteFloat false c e := rfl
    rw [hneg, unpack_neg, hpositive, nearestDouble_neg]
    rfl

end Inquiry.Decimal
