import Inquiry.Decimal.Nearest
import Inquiry.Proofs.Decimal.Shortest

/-!
# Percentages

A quotient that is not below zero is nearest to a double without a sign, products and the bits of a
double keep it so, and what is at most a hundred is at most a hundred when it is rounded to two
decimals. So the double need not be known: the product may be rounded either way.
-/
namespace Float.Model.UnpackedFloat

open Inquiry Inquiry.Decimal

variable {p q : UnpackedFloat}

/-- Without a sign, if it is a number at all. -/
def Unsigned : UnpackedFloat → Prop
  | notANumber => True
  | infinity s => s = .positive
  | zero s => s = .positive
  | finite s _ _ _ => s = .positive

theorem unsigned_unpack {b : BitVec Format.binary64.numBits}
    (h : Sign.ofBitVec (unpackSign b) = .positive) : (unpack .binary64 b).Unsigned := by
  rcases unpack_cases b with ⟨-, heq | heq⟩ | ⟨-, -, heq⟩ | ⟨-, _, heq⟩ | ⟨-, -, _, heq⟩
  all_goals rw [heq]
  · exact h
  · trivial
  · exact h
  · exact h
  · exact h

theorem Unsigned.unpack_pack (h : p.Unsigned) : (unpack .binary64 (pack .binary64 p)).Unsigned := by
  have hsign {e : BitVec 11} {m : BitVec 52} :
      Sign.ofBitVec (unpackSign (packComponents .binary64 .positive e m)) = .positive := by
    rw [unpackSign_packComponents, Sign.ofBitVec_toBitVec]
  cases p with
  | notANumber => exact unsigned_unpack hsign
  | infinity s =>
    obtain rfl := h
    exact unsigned_unpack hsign
  | zero s =>
    obtain rfl := h
    exact unsigned_unpack hsign
  | finite s m e hm =>
    obtain rfl := h
    unfold pack
    dsimp only
    split_ifs <;> exact unsigned_unpack hsign

theorem unsigned_roundWithAccuracy (m : Nat) (e : Int) (accuracy : Accuracy) :
    (roundWithAccuracy .binary64 .positive m e accuracy).Unsigned := by
  unfold roundWithAccuracy
  dsimp only
  split_ifs <;> rfl

theorem Unsigned.mul (hp : p.Unsigned) (hq : q.Unsigned) : (mul .binary64 p q).Unsigned := by
  cases p <;> cases q <;> try trivial
  all_goals
    obtain rfl := hp
    obtain rfl := hq
  case finite.finite => exact unsigned_roundWithAccuracy _ _ _
  all_goals rfl

/-- A hundred as a double. -/
def hundred : UnpackedFloat := finite .positive (100 * 2 ^ 46) (-46) (by decide)

section Compare

variable {m : Nat} {e : Int} {hm : 0 < m}

theorem compare_hundred : (finite .positive m e hm).compare hundred =
    some ((Ord.compare e (-46)).then (Ord.compare m (100 * 2 ^ 46))) := rfl

theorem le_hundred (h : e < -46 ∨ (e = -46 ∧ m ≤ 100 * 2 ^ 46)) :
    (finite .positive m e hm).le hundred = true := by
  unfold UnpackedFloat.le
  rw [compare_hundred]
  rcases h with he | ⟨rfl, hle⟩
  · rw [compare_lt_iff_lt.mpr he]
    rfl
  · exact Nat.isLE_compare.mpr hle

theorem lt_hundred (h : (finite .positive m e hm).lt hundred = true) :
    e < -46 ∨ (e = -46 ∧ m < 100 * 2 ^ 46) := by
  unfold UnpackedFloat.lt at h
  rw [compare_hundred] at h
  rcases lt_trichotomy e (-46) with he | rfl | he
  · exact Or.inl he
  · exact Or.inr ⟨rfl, compare_lt_iff_lt.mp (Option.some.inj (eq_of_beq h))⟩
  · rw [compare_gt_iff_gt.mpr he] at h
    cases h

end Compare

/-- A rounded mantissa is at most a hundred if its exponent is smaller, or the mantissa is. -/
theorem carried_le_hundred {r x : Nat} (hx : x ≤ 1028) (hlast : x = 1028 → r ≤ 100 * 2 ^ 46) :
    (carried .positive r (x - 1074)).le hundred = true := by
  unfold carried
  split_ifs
  · rfl
  · exact le_hundred (by omega)
  · exact le_hundred (by omega)

end Float.Model.UnpackedFloat

namespace Inquiry.Decimal

open Float.Model Float.Model.UnpackedFloat

variable {x : Float}

theorem le_iff (x y : Float) : x ≤ y ↔ x.toModel.unpack.le y.toModel.unpack = true := by
  change decide (x.toModel.le y.toModel = true) = true ↔ _
  exact decide_eq_true_iff

theorem unpack_hundred : (100.0 : Float).toModel.unpack = hundred := rfl

theorem shifted_lt_iff (num den c : Nat) (e : ℤ) :
    num * 2 ^ (-e).toNat < c * (den * 2 ^ e.toNat) ↔ (num : ℚ) < c * den * 2 ^ e := by
  rw [zpow_eq_div two_ne_zero, ← mul_div_assoc, lt_div_iff₀ (by positivity), ← mul_assoc]
  norm_cast

/-- The exponent leaves a mantissa of 53 digits at most. -/
theorem lt_mantissaExponent (num : Nat) {den : Nat} (hden : 0 < den) :
    (num : ℚ) < (2 ^ 53 : Nat) * den * 2 ^ mantissaExponent num den := by
  obtain ⟨e, he⟩ : ∃ e : ℤ, (num.log2 : ℤ) - den.log2 - 52 = e := ⟨_, rfl⟩
  have hexponent : mantissaExponent num den =
      max (if num * 2 ^ (-e).toNat < 2 ^ 52 * (den * 2 ^ e.toNat) then e - 1 else e) (-1074) := by
    rw [← he]
    rfl
  have hmono {d : ℤ} (hd : d ≤ mantissaExponent num den) :
      ((2 ^ 53 : Nat) * den * 2 ^ d : ℚ) ≤ (2 ^ 53 : Nat) * den * 2 ^ mantissaExponent num den := by
    gcongr
    exact one_le_two
  by_cases hshort : num * 2 ^ (-e).toNat < 2 ^ 52 * (den * 2 ^ e.toNat)
  · rw [if_pos hshort] at hexponent
    calc (num : ℚ) < (2 ^ 52 : Nat) * den * 2 ^ e := (shifted_lt_iff num den (2 ^ 52) e).mp hshort
      _ = (2 ^ 53 : Nat) * den * 2 ^ (e - 1) := by
          rw [zpow_sub_one₀ two_ne_zero]
          push_cast
          ring
      _ ≤ _ := hmono (by omega)
  · rw [if_neg hshort] at hexponent
    have hlog : (num : ℚ) < 2 ^ (num.log2 + 1) := by exact_mod_cast Nat.lt_log2_self
    have hden' : (2 : ℚ) ^ den.log2 ≤ den := by exact_mod_cast Nat.log2_self_le hden.ne'
    calc (num : ℚ) < 2 ^ (num.log2 + 1) := hlog
      _ = (2 ^ 53 : Nat) * 2 ^ den.log2 * 2 ^ e := by
          rw [← he, zpow_sub₀ two_ne_zero, zpow_sub₀ two_ne_zero, zpow_natCast, zpow_natCast, pow_succ]
          field_simp
          norm_num
      _ ≤ (2 ^ 53 : Nat) * den * 2 ^ e := by gcongr
      _ ≤ _ := hmono (by omega)

theorem roundDiv_mantissaExponent_le (num : Nat) {den : Nat} (hden : 0 < den) :
    roundDiv (num * 2 ^ (-mantissaExponent num den).toNat)
      (den * 2 ^ (mantissaExponent num den).toNat) ≤ 2 ^ 53 := by
  refine (roundDiv_le_succ _ _).trans ?_
  rw [Nat.succ_le_iff, Nat.div_lt_iff_lt_mul (Nat.mul_pos hden (Nat.two_pow_pos _)),
    shifted_lt_iff]
  exact lt_mantissaExponent num hden

theorem bitsOf_lt {m : Nat} {e : Int} (hm : m < 2 ^ 53) (he : e ≤ 971) :
    bitsOf false m e < 2 ^ 63 := by
  unfold bitsOf
  dsimp only
  rw [if_neg Bool.false_ne_true, Nat.zero_add]
  split_ifs <;> omega

theorem unsigned_nearest? {num : Int} {den : Nat} (hnum : 0 ≤ num) (hden : 0 < den)
    (h : nearest? num den = some x) : x.toModel.unpack.Unsigned := by
  unfold nearest? at h
  split at h
  · obtain rfl := Option.some.inj h
    rfl
  · have hround := roundDiv_mantissaExponent_le num.natAbs hden
    dsimp only at h
    generalize mantissaExponent num.natAbs den = e at h hround
    generalize roundDiv _ _ = m at h hround
    rw [decide_eq_false (by omega)] at h
    -- A carry goes into the exponent, and then the mantissa has 53 digits again.
    obtain ⟨m', e', hm, he, hx⟩ : ∃ m' e', m' < 2 ^ 53 ∧ e' ≤ 971 ∧
        x = Float.ofBits (UInt64.ofNat (bitsOf false m' e')) := by
      split at h
      all_goals
        dsimp only at h
        split at h
        · cases h
        · exact ⟨_, _, by omega, by omega, (Option.some.inj h).symm⟩
    have hbits := bitsOf_lt hm he
    rw [hx, unpack_ofBits]
    refine unsigned_unpack ?_
    rw [ofBitVec_unpackSign, UInt64.toNat_toBitVec, UInt64.toNat_ofNat', if_neg (by omega)]

theorem zero_le_carried (r : Nat) (e : Int) :
    (zero .positive).le (carried .positive r e) = true := by
  unfold carried
  split_ifs <;> rfl

section Hundredths

variable {n : Nat} (h : n ≤ 10000)
include h

theorem excess_hundredths : excess (n * 2 ^ 1074 / 10 ^ 2) ≤ 1028 := by
  have hlog : Nat.log2 100 = 6 := by decide
  have hhundred : excess (100 * 2 ^ 1074) = 1028 := by
    rw [excess, log2_mul_two_pow (by decide), hlog]
  rw [← hhundred]
  refine excess_mono (Nat.div_le_of_le_mul ?_)
  rw [← Nat.mul_assoc]
  exact Nat.mul_le_mul_right _ h

/-- A hundred in hundredths is a hundred, and nothing less is rounded to more. -/
theorem roundDiv_hundredths {x : Nat} (hx : x = 1028) :
    roundDiv (n * 2 ^ 1074) (10 ^ 2 * 2 ^ x) ≤ 100 * 2 ^ 46 := by
  have hpos : 0 < 10 ^ 2 * 2 ^ x := Nat.mul_pos (by decide) (Nat.two_pow_pos x)
  have hexact : 10000 * 2 ^ 1074 = 100 * 2 ^ 46 * (10 ^ 2 * 2 ^ x) := by
    rw [show 1074 = 46 + x by omega, pow_add]
    ring
  have hmono := roundDiv_mono (10 ^ 2 * 2 ^ x) (Nat.mul_le_mul_right (2 ^ 1074) h)
  rwa [hexact, roundDiv_exact hpos (Nat.mul_mod_left _ _), Nat.mul_div_cancel _ hpos] at hmono

theorem ofScientific_two_le_hundred :
    0.0 ≤ Float.ofScientific n true 2 ∧ Float.ofScientific n true 2 ≤ 100.0 := by
  have hzero : (0.0 : Float).toModel.unpack = zero .positive := rfl
  rw [le_iff, le_iff, hzero, unpack_hundred]
  by_cases hn : n = 0
  · subst hn
    exact ⟨rfl, rfl⟩
  · rw [unpack_ofScientific_below hn (by decide) (by omega), nearestDouble_eq]
    have hexcess := excess_hundredths h
    have hbound := (nearestTo_bounds (n * 2 ^ 1074) (10 ^ 2)).1
    unfold nearestTo
    generalize excess (n * 2 ^ 1074 / 10 ^ 2) = x at hexcess hbound ⊢
    have hbeyond : roundDiv (n * 2 ^ 1074) (10 ^ 2 * 2 ^ x) * 2 ^ x < unitsBeyond :=
      calc roundDiv (n * 2 ^ 1074) (10 ^ 2 * 2 ^ x) * 2 ^ x ≤ 2 ^ 53 * 2 ^ x :=
            Nat.mul_le_mul_right _ hbound
        _ < 2 ^ 53 * 2 ^ greatestExcess :=
            Nat.mul_lt_mul_of_pos_left (Nat.pow_lt_pow_right Nat.one_lt_two (by
              unfold greatestExcess
              omega)) (Nat.two_pow_pos 53)
    rw [if_pos hbeyond]
    exact ⟨zero_le_carried _ _, carried_le_hundred hexcess fun hx => roundDiv_hundredths h hx⟩

end Hundredths

/-- The parts of a double that lies between zero and a hundred. -/
def IsPart (b : Binary) : Prop := b.negative = false ∧ b.num ≤ 100 * b.den

theorem parts_eq {b : Binary} {m : Nat} {e : Int}
    (h : (b.negative, b.mantissa, b.exponent) = (Sign.positive == .negative, m, e)) :
    b.negative = false ∧ b.mantissa = m ∧ b.exponent = e := by
  simp only [Prod.mk.injEq] at h
  exact h

theorem exists_isPart (hx : x.toModel.unpack.Unsigned) (hlt : x < 100.0) :
    ∃ b, Binary.ofFloat x = some b ∧ IsPart b := by
  have hbinary := ofFloat_eq_binary? x
  have hcanonical := canonical_toModel x
  rw [Value.lt_iff, unpack_hundred] at hlt
  revert hx hlt hbinary hcanonical
  generalize x.toModel.unpack = p
  intro hx hlt hbinary hcanonical
  cases p with
  | notANumber => cases hlt
  | infinity s =>
    obtain rfl := hx
    cases hlt
  | zero s =>
    obtain rfl := hx
    obtain ⟨b, hb, hparts⟩ := Option.map_eq_some_iff.mp hbinary
    obtain ⟨hsign, hmantissa, -⟩ := parts_eq hparts
    refine ⟨b, hb, hsign, ?_⟩
    rw [Binary.num, hmantissa, Nat.zero_mul]
    exact Nat.zero_le _
  | finite s m e hm =>
    obtain rfl := hx
    obtain ⟨b, hb, hparts⟩ := Option.map_eq_some_iff.mp hbinary
    obtain ⟨hsign, hmantissa, hexponent⟩ := parts_eq hparts
    have hsmall : m < 2 ^ 53 := hcanonical.1
    have hle := lt_hundred hlt
    refine ⟨b, hb, hsign, ?_⟩
    rw [Binary.num, Binary.den, hmantissa, hexponent, show e.toNat = 0 by omega, pow_zero, mul_one]
    rcases hle with he | ⟨rfl, hm⟩
    · calc m ≤ 100 * 2 ^ (47 : Nat) := by omega
        _ ≤ 100 * 2 ^ (-e).toNat :=
          Nat.mul_le_mul_left 100 (Nat.pow_le_pow_right Nat.two_pos (by omega))
    · exact hm.le

theorem exists_isPart_hundred : ∃ b, Binary.ofFloat 100.0 = some b ∧ IsPart b :=
  ⟨⟨false, 100 * 2 ^ 46, -46, false⟩, by decide +kernel, rfl, by decide⟩

theorem roundTo_two_le_hundred {b : Binary} (h : Binary.ofFloat x = some b) (hb : IsPart b) :
    0.0 ≤ roundTo x 2 ∧ roundTo x 2 ≤ 100.0 := by
  obtain ⟨hsign, hle⟩ := hb
  have hscaled : b.scaled 2 ≤ 10000 := by
    have hmono := roundDiv_mono b.den (show b.num * 10 ^ 2 ≤ 10000 * b.den by omega)
    rwa [roundDiv_exact b.den_pos (Nat.mul_mod_left _ _), Nat.mul_div_cancel _ b.den_pos] at hmono
  rw [roundTo, h]
  dsimp only
  rw [hsign, if_neg Bool.false_ne_true]
  exact ofScientific_two_le_hundred hscaled

end Inquiry.Decimal
