import Inquiry.Proofs.Decimal.Order
import Inquiry.Proofs.Decimal.Rounding
import Mathlib

/-!
# Doubles on the line

Every finite double is a whole number of units of the least one, so a difference of two is rounded
from a whole number of them, and rounding never goes below the units. A double has its place among
these whole numbers and the two infinities, and the place of a difference follows from the places of
its terms.
-/
namespace Float.Model.UnpackedFloat

open Inquiry Inquiry.Decimal

/-- The exponent is the least one, unless the mantissa has all its digits. -/
def Canonical : UnpackedFloat → Prop
  | finite _ m e _ => m < 2 ^ 53 ∧ -1074 ≤ e ∧ e ≤ 971 ∧ (m < 2 ^ 52 → e = -1074)
  | _ => True

/-- The sign, mantissa and exponent of a finite number. -/
def binary? : UnpackedFloat → Option (Bool × Nat × Int)
  | zero s => some (s == .negative, 0, -1074)
  | finite s m e _ => some (s == .negative, m, e)
  | _ => none

theorem toNat_one_append {w : Nat} (v : BitVec w) : (1#1 ++ v).toNat = 2 ^ w + v.toNat := by
  rw [BitVec.toNat_append, ← Nat.shiftLeft_add_eq_or_of_lt v.isLt]
  simp [Nat.shiftLeft_eq]

theorem exponentBias_binary64 : Format.binary64.exponentBias = 1023 := rfl

/-- The three parts of 64 bits: `field` and `fraction` are those that say which number it is. -/
theorem unpack_cases (b : BitVec Format.binary64.numBits) :
    let s := Sign.ofBitVec (unpackSign b)
    let field := (unpackExponent b).toNat
    let fraction := (unpackMantissa b).toNat
    (field = 2047 ∧ (unpack .binary64 b = infinity s ∨ unpack .binary64 b = notANumber)) ∨
    (field = 0 ∧ fraction = 0 ∧ unpack .binary64 b = zero s) ∨
    (field = 0 ∧ ∃ h, unpack .binary64 b = finite s fraction (-1074) h) ∨
    (field ≠ 0 ∧ field ≠ 2047 ∧
      ∃ h, unpack .binary64 b = finite s (2 ^ 52 + fraction) (field - 1075) h) := by
  unfold unpack
  dsimp only
  split
  · rename_i hfield
    refine Or.inl ⟨by rw [hfield]; rfl, ?_⟩
    split
    · exact Or.inl rfl
    · exact Or.inr rfl
  · rename_i hinfinite
    have hne' : (unpackExponent b).toNat ≠ 2047 := fun h => hinfinite (BitVec.eq_of_toNat_eq h)
    refine Or.inr ?_
    split
    · rename_i hsmall
      have hzero : (unpackExponent b).toNat = 0 := by rw [hsmall]; rfl
      split
      · rename_i hfraction
        exact Or.inl ⟨hzero, by rw [hfraction]; rfl, rfl⟩
      · rename_i hne
        have hpos : 0 < (unpackMantissa b).toNat :=
          Nat.pos_of_ne_zero fun h => hne (BitVec.eq_of_toNat_eq h)
        refine Or.inr (Or.inl ⟨hzero, hpos, ?_⟩)
        rw [exponentBias_binary64]
        simp only [hzero]
        rfl
    · rename_i hnormal
      have hne : (unpackExponent b).toNat ≠ 0 := fun h => hnormal (BitVec.eq_of_toNat_eq h)
      refine Or.inr (Or.inr ⟨hne, hne', ?_⟩)
      have happ : (1#1 ++ unpackMantissa b).toNat = 2 ^ 52 + (unpackMantissa b).toNat :=
        toNat_one_append _
      have hpos : 0 < 2 ^ 52 + (unpackMantissa b).toNat := by omega
      refine ⟨hpos, ?_⟩
      simp only [happ]
      rfl

theorem unpack_canonical (b : BitVec Format.binary64.numBits) :
    (unpack .binary64 b).Canonical := by
  have hfraction : (unpackMantissa b).toNat < 2 ^ 52 := (unpackMantissa b).isLt
  have hfield : (unpackExponent b).toNat < 2 ^ 11 := (unpackExponent b).isLt
  rcases unpack_cases b with ⟨-, h | h⟩ | ⟨-, -, h⟩ | ⟨-, hm, h⟩ | ⟨hne, hne', hm, h⟩ <;>
    rw [h]
  · trivial
  · trivial
  · trivial
  · exact ⟨by omega, by omega, by omega, fun _ => rfl⟩
  · exact ⟨by omega, by omega, by omega, by omega⟩

section Fields

variable (b : BitVec Format.binary64.numBits)

theorem toNat_unpackExponent : (unpackExponent b).toNat = b.toNat / 2 ^ 52 % 2 ^ 11 := by
  rw [unpackExponent_def, BitVec.extractLsb'_toNat, Nat.shiftRight_eq_div_pow]

theorem toNat_unpackMantissa : (unpackMantissa b).toNat = b.toNat % 2 ^ 52 := by
  rw [unpackMantissa_def, BitVec.extractLsb'_toNat, Nat.shiftRight_zero]

theorem ofBitVec_unpackSign :
    Sign.ofBitVec (unpackSign b) = if b.toNat / 2 ^ 63 % 2 = 1 then .negative else .positive := by
  have hsign : (unpackSign b).toNat = b.toNat / 2 ^ 63 % 2 := by
    rw [unpackSign_def, BitVec.extractLsb'_toNat, Nat.shiftRight_eq_div_pow]
    rfl
  rw [← hsign]
  generalize unpackSign b = v
  obtain rfl | rfl : v = 0#1 ∨ v = 1#1 := by
    revert v
    decide
  · rfl
  · rfl

end Fields

/-- What is read off the bits of a double is the number that they stand for. -/
theorem ofFloat_eq_binary? (x : Float) :
    (Binary.ofFloat x).map (fun b => (b.negative, b.mantissa, b.exponent)) =
      x.toModel.unpack.binary? := by
  let b : BitVec Format.binary64.numBits := x.toModel.toBits.toBitVec
  have hnegative : (b.toNat / 2 ^ 63 % 2 == 1) = (Sign.ofBitVec (unpackSign b) == .negative) := by
    rw [ofBitVec_unpackSign]
    split
    · rename_i h
      rw [h]
      rfl
    · rename_i h
      rw [beq_eq_false_iff_ne.mpr h]
      rfl
  change (Binary.ofBits b.toNat).map _ = (unpack .binary64 b).binary?
  unfold Binary.ofBits
  dsimp only
  rw [hnegative, ← toNat_unpackExponent, ← toNat_unpackMantissa]
  rcases unpack_cases b with ⟨h2047, h | h⟩ | ⟨h0, h0', h⟩ | ⟨h0, hm, h⟩ | ⟨hne, hne', hm, h⟩ <;>
    rw [h]
  · rw [if_pos h2047]
    rfl
  · rw [if_pos h2047]
    rfl
  · rw [if_neg (by omega), if_pos h0, h0']
    rfl
  · rw [if_neg (by omega), if_pos h0]
    rfl
  · rw [if_neg hne', if_neg hne]
    rfl

theorem unpack_packedInfinity (s : Sign) :
    unpack .binary64 (packedInfinity .binary64 s) = infinity s := by
  cases s <;> rfl

theorem unpack_pack_zero (s : Sign) : unpack .binary64 (pack .binary64 (zero s)) = zero s := by
  cases s <;> rfl

theorem mantissaBits_binary64 : Format.binary64.mantissaBits = 53 := rfl

theorem log2_eq_52 {m : Nat} (hm : 2 ^ 52 ≤ m) (hm' : m < 2 ^ 53) : m.log2 = 52 :=
  (Nat.log2_eq_iff (by omega)).mpr ⟨hm, hm'⟩

/-- The exponent as the bits have it. -/
theorem biased_eq (e : Int) :
    (e + (Format.binary64.exponentBias : Int) + ((52 : Nat) : Int)).toNat = (e + 1075).toNat := by
  rw [exponentBias_binary64]
  congr 1
  omega

theorem pack_of_normal {s : Sign} {m : Nat} {e : Int} (h : 0 < m) (hm : 2 ^ 52 ≤ m)
    (hm' : m < 2 ^ 53) (he : e ≤ 971) :
    pack .binary64 (finite s m e h) = packComponents .binary64 s
      (BitVec.ofNat 11 (e + 1075).toNat) (BitVec.ofNat 52 m) := by
  unfold pack
  simp only [biased_eq, log2_eq_52 hm hm', mantissaBits_binary64]
  rw [if_neg (by omega), if_pos trivial]

theorem pack_of_small {s : Sign} {m : Nat} (h : 0 < m) (hm : m < 2 ^ 52) :
    pack .binary64 (finite s m (-1074) h) =
      packComponents .binary64 s 0#11 (BitVec.ofNat 52 m) := by
  have hlog : m.log2 < 52 := (Nat.log2_lt h.ne').mpr hm
  unfold pack
  simp only
  rw [if_neg (by decide), if_neg (by rw [mantissaBits_binary64]; omega)]

theorem pack_of_over {s : Sign} {m : Nat} {e : Int} (h : 0 < m) (he : 971 < e) :
    pack .binary64 (finite s m e h) = packedInfinity .binary64 s := by
  unfold pack
  simp only [biased_eq]
  rw [if_pos (by omega)]

/-- A finite number is read back from its bits, unless it is beyond the doubles. -/
theorem unpack_pack_finite {s : Sign} {m : Nat} {e : Int} (h : 0 < m) (hm : m < 2 ^ 53)
    (he : -1074 ≤ e) (hfull : m < 2 ^ 52 → e = -1074) :
    unpack .binary64 (pack .binary64 (finite s m e h)) =
      if e ≤ 971 then finite s m e h else infinity s := by
  have hfraction : (BitVec.ofNat 52 m).toNat = m % 2 ^ 52 := BitVec.toNat_ofNat m 52
  by_cases hover : e ≤ 971
  · rw [if_pos hover]
    by_cases hsmall : m < 2 ^ 52
    · obtain rfl := hfull hsmall
      rw [pack_of_small h hsmall]
      have hcases := unpack_cases (packComponents .binary64 s 0#11 (BitVec.ofNat 52 m))
      simp only [unpackExponent_packComponents, unpackMantissa_packComponents, hfraction,
        unpackSign_packComponents, Sign.ofBitVec_toBitVec, BitVec.toNat_ofNat, Nat.zero_mod,
        Nat.mod_eq_of_lt hsmall] at hcases
      rcases hcases with ⟨hc, -⟩ | ⟨-, hc, -⟩ | ⟨-, _, heq⟩ | ⟨hc, -⟩
      · omega
      · omega
      · exact heq
      · omega
    · rw [pack_of_normal h (by omega) hm hover]
      have hfield : (BitVec.ofNat 11 (e + 1075).toNat).toNat = (e + 1075).toNat := by
        rw [BitVec.toNat_ofNat]
        omega
      have hcases := unpack_cases (packComponents .binary64 s (BitVec.ofNat 11 (e + 1075).toNat)
        (BitVec.ofNat 52 m))
      have hmantissa : 2 ^ 52 + m % 2 ^ 52 = m := by omega
      have hexponent : ((e + 1075).toNat : Int) - 1075 = e := by omega
      simp only [unpackExponent_packComponents, unpackMantissa_packComponents, hfraction, hfield,
        unpackSign_packComponents, Sign.ofBitVec_toBitVec, hmantissa, hexponent] at hcases
      rcases hcases with ⟨hc, -⟩ | ⟨hc, -⟩ | ⟨hc, -⟩ | ⟨-, -, _, heq⟩
      · omega
      · omega
      · omega
      · exact heq
  · rw [if_neg hover, pack_of_over h (by omega), unpack_packedInfinity]

/-- A mantissa of 53 digits, or the least one of 54, of which the last digit goes into the exponent. -/
def carried (s : Sign) (r : Nat) (e : Int) : UnpackedFloat :=
  if h : r = 0 then zero s
  else if r < 2 ^ 53 then finite s r e (Nat.pos_of_ne_zero h)
  else finite s (2 ^ 52) (e + 1) (Nat.two_pow_pos 52)

theorem targetExponent_binary64 (m : Nat) (e : Int) :
    Format.binary64.targetExponent (totalExponent m e) = max ((m.log2 : Int) + e - 52) (-1074) := by
  unfold Format.targetExponent totalExponent
  rw [mantissaBits_binary64]
  change max _ (-1074 : Int) = _
  congr 1
  push_cast
  omega

theorem log2_le_52 {m : Nat} (hm : m < 2 ^ 53) : m.log2 ≤ 52 := by
  rcases Nat.eq_zero_or_pos m with rfl | h
  · decide
  · exact Nat.le_of_lt_succ ((Nat.log2_lt h.ne').mpr hm)

theorem shiftToTargetExponent_of_lt {m : Nat} {e : Int} (hm : m < 2 ^ 53) (he : -1074 ≤ e) :
    shiftToTargetExponent .binary64 m e .exact = (⟨m, false, false⟩, e) := by
  have hlog := log2_le_52 hm
  have hshift : (max ((m.log2 : Int) + e - 52) (-1074) - e).toNat = 0 := by omega
  unfold shiftToTargetExponent shiftToExponent
  simp only [targetExponent_binary64, hshift]
  refine Prod.ext rfl ?_
  exact Int.add_zero e

theorem shiftToTargetExponent_of_carry {e : Int} (he : -1074 ≤ e) :
    shiftToTargetExponent .binary64 (2 ^ 53) e .exact = (⟨2 ^ 52, false, false⟩, e + 1) := by
  have hshift : (max (((2 ^ 53).log2 : Int) + e - 52) (-1074) - e).toNat = 1 := by
    rw [Nat.log2_two_pow]
    omega
  unfold shiftToTargetExponent shiftToExponent
  simp only [targetExponent_binary64, hshift]
  rfl

theorem carried_of_shift {s : Sign} {r : Nat} {e : Int} (hr : r ≤ 2 ^ 53) (he : -1074 ≤ e) :
    (let (em, e') := shiftToTargetExponent .binary64 r e .exact
     if h : em.mantissa = 0 then zero s else finite s em.mantissa e' (Nat.pos_of_ne_zero h)) =
      carried s r e := by
  unfold carried
  rcases Nat.eq_or_lt_of_le hr with rfl | hlt
  · rw [shiftToTargetExponent_of_carry he]
    rfl
  · rw [shiftToTargetExponent_of_lt hlt he]
    simp only [if_pos hlt]

/-- A quotient of which the mantissa is the whole part is rounded to the nearest mantissa. -/
theorem roundWithAccuracy_eq {s : Sign} {m num den k : Nat} {e : Int} {accuracy : Accuracy}
    (hden : 0 < den)
    (h : (ExtendedMantissa.ofMantissaAndAccuracy m accuracy).StandsFor num den)
    (hm : num / den = m) (hk : k = (max ((m.log2 : Int) + e - 52) (-1074) - e).toNat) :
    roundWithAccuracy .binary64 s m e accuracy =
      carried s (roundDiv num (den * 2 ^ k)) (e + k) := by
  have hrounded :
      (ExtendedMantissa.ofMantissaAndAccuracy m accuracy >>> k).roundedMantissa =
        roundDiv num (den * 2 ^ k) :=
    (h.shiftRight hden k).roundedMantissa_eq (Nat.mul_pos hden (Nat.two_pow_pos k))
  have hle : roundDiv num (den * 2 ^ k) ≤ 2 ^ 53 := by
    refine (roundDiv_le_succ _ _).trans ?_
    rw [← Nat.div_div_eq_div_mul, hm, Nat.succ_le_iff, Nat.div_lt_iff_lt_mul (Nat.two_pow_pos k),
      ← pow_add]
    exact Nat.lt_log2_self.trans_le (Nat.pow_le_pow_right Nat.two_pos (by omega))
  rw [← carried_of_shift hle (by omega), ← hrounded, hk, ← targetExponent_binary64]
  rfl

theorem roundWithAccuracy_exact {s : Sign} {m k : Nat} {e : Int}
    (hk : k = (max ((m.log2 : Int) + e - 52) (-1074) - e).toNat) :
    roundWithAccuracy .binary64 s m e .exact = carried s (roundDiv m (2 ^ k)) (e + k) := by
  rw [roundWithAccuracy_eq Nat.one_pos (ExtendedMantissa.standsFor_exact m) (Nat.div_one m) hk,
    one_mul]

/-- From the least exponent on, a number is rounded as the whole number of units that it is. -/
theorem round_eq {s : Sign} {m j : Nat} (hm : m ≠ 0) :
    round .binary64 s m (j - 1074) =
      carried s (roundDiv (m * 2 ^ j) (2 ^ excess (m * 2 ^ j))) (excess (m * 2 ^ j) - 1074) := by
  have hexcess : (excess (m * 2 ^ j) : Int) - 1074 = max ((m.log2 : Int) + (j - 1074) - 52) (-1074) := by
    unfold excess
    rw [log2_mul_two_pow hm]
    omega
  obtain ⟨x, hx⟩ : ∃ x, excess (m * 2 ^ j) = x := ⟨_, rfl⟩
  obtain ⟨d, hd⟩ : ∃ d, ((j : Int) - 1074 - (x - 1074)).toNat = d := ⟨_, rfl⟩
  obtain ⟨k, hk⟩ : ∃ k, ((x : Int) - 1074 - (j - 1074)).toNat = k := ⟨_, rfl⟩
  rw [hx] at hexcess ⊢
  unfold round decreaseExponent
  simp only [targetExponent_binary64, ← hexcess, hd, Nat.shiftLeft_eq]
  rw [roundWithAccuracy_exact (k := k) (by rw [log2_mul_two_pow hm]; push_cast; omega)]
  -- The mantissa is shifted one way or the other; either way it is the same quotient.
  have hquotient : roundDiv (m * 2 ^ j) (2 ^ x) = roundDiv (m * 2 ^ d) (2 ^ k) := by
    rw [← roundDiv_mul_right (Nat.two_pow_pos k) (m * 2 ^ j),
      ← roundDiv_mul_right (Nat.two_pow_pos x) (m * 2 ^ d), mul_assoc, mul_assoc, ← pow_add,
      ← pow_add, ← pow_add, ← pow_add, Nat.add_comm k x, show j + k = d + x by omega]
  rw [hquotient]
  congr 1
  omega

/-- A double in units of the least one. -/
def units : UnpackedFloat → Int
  | finite s m e _ => s.apply (m * 2 ^ (e + 1074).toNat : Nat)
  | _ => 0

/-- The excess places of the greatest doubles. -/
def greatestExcess : Nat := 2045

/-- The units of the first power of two beyond the doubles. -/
def unitsBeyond : Nat := 2 ^ 53 * 2 ^ greatestExcess

theorem units_carried {s : Sign} {r x : Nat} (hr : r ≤ 2 ^ 53) :
    (carried s r (x - 1074)).units = s.apply (r * 2 ^ x : Nat) := by
  unfold carried
  split_ifs with hzero hlt
  · rw [hzero, zero_mul]
    cases s <;> rfl
  · have hexponent : ((x : Int) - 1074 + 1074).toNat = x := by omega
    rw [units, hexponent]
  · have hexponent : ((x : Int) - 1074 + 1 + 1074).toNat = x + 1 := by omega
    have hr' : r = 2 ^ 53 := by omega
    rw [units, hexponent, hr']
    congr 2
    rw [pow_succ 2 52, pow_succ' 2 x, mul_assoc]

theorem unpack_pack_carried {s : Sign} {r x : Nat} (hr : r ≤ 2 ^ 53)
    (hfull : x ≠ 0 → 2 ^ 52 ≤ r) :
    unpack .binary64 (pack .binary64 (carried s r (x - 1074))) =
      if r * 2 ^ x < unitsBeyond then carried s r (x - 1074) else infinity s := by
  have hpow {a b : Nat} (h : a ≤ b) : 2 ^ a ≤ 2 ^ b := Nat.pow_le_pow_right Nat.two_pos h
  unfold unitsBeyond carried
  -- The exponent gets a name, so that nothing writes the power out.
  obtain ⟨t, ht⟩ : ∃ t, greatestExcess = t := ⟨_, rfl⟩
  have ht' : t = 2045 := ht.symm
  rw [ht]
  by_cases hzero : r = 0
  · have hpos : 0 < 2 ^ 53 * 2 ^ t := Nat.mul_pos (Nat.two_pow_pos 53) (Nat.two_pow_pos t)
    rw [dif_pos hzero, hzero, zero_mul, if_pos hpos, unpack_pack_zero]
  · rw [dif_neg hzero]
    by_cases hlt : r < 2 ^ 53
    · rw [if_pos hlt, unpack_pack_finite _ hlt (by omega) (by omega)]
      refine if_congr ?_ rfl rfl
      constructor
      · intro hx
        calc r * 2 ^ x ≤ r * 2 ^ t := Nat.mul_le_mul_left r (hpow (by omega))
          _ < 2 ^ 53 * 2 ^ t := Nat.mul_lt_mul_of_pos_right hlt (Nat.two_pow_pos t)
      · intro hx
        by_contra hover
        refine hx.not_ge ?_
        obtain ⟨y, rfl⟩ : ∃ y, x = y + 1 := ⟨x - 1, by omega⟩
        have hfull' := hfull (Nat.succ_ne_zero y)
        calc 2 ^ 53 * 2 ^ t ≤ (r * 2) * 2 ^ y := Nat.mul_le_mul (by omega) (hpow (by omega))
          _ = r * 2 ^ (y + 1) := by ring
    · have hr' : r = 2 ^ 53 := by omega
      rw [if_neg hlt, unpack_pack_finite _ (by norm_num) (by omega) (by norm_num), hr']
      refine if_congr ?_ rfl rfl
      rw [Nat.mul_lt_mul_left (Nat.two_pow_pos 53), Nat.pow_lt_pow_iff_right Nat.one_lt_two]
      omega

/-- The fraction that a number of units is. -/
def ofUnits (n : Int) : Extended := .of (n / 2 ^ 1074)

theorem ofUnits_le_ofUnits {m n : Int} : ofUnits m ≤ ofUnits n ↔ m ≤ n := by
  have hpos : (0 : ℚ) < 2 ^ 1074 := pow_pos (by norm_num) 1074
  rw [ofUnits, ofUnits, Extended.of_le_of, div_le_div_iff_of_pos_right hpos, Int.cast_le]

theorem ofUnits_mul (n : Int) : ofUnits (n * 2 ^ 1074) = .of n := by
  have hne : (2 : ℚ) ^ 1074 ≠ 0 := pow_ne_zero 1074 (by norm_num)
  rw [ofUnits, Int.cast_mul, Int.cast_pow, Int.cast_ofNat, mul_div_cancel_right₀ _ hne]

/-- The end of the line to which a sign points. -/
def endOf : Sign → Extended
  | .negative => ⊥
  | .positive => ⊤

/-- Where a number lies on the line between the infinities. -/
def place? : UnpackedFloat → Option Extended
  | notANumber => none
  | infinity s => some (endOf s)
  | p => some (ofUnits p.units)

/-- Where so many units lie, with a sign, when they are rounded to a double. -/
def roundedWith (s : Sign) (n : Nat) : Extended :=
  if toDigits53 n < unitsBeyond then ofUnits (s.apply (toDigits53 n)) else endOf s

def rounded (n : Int) : Extended :=
  if n < 0 then roundedWith .negative n.natAbs else roundedWith .positive n.natAbs

theorem lt_unitsBeyond {m x : Nat} (hm : m < 2 ^ 53) (hx : x ≤ greatestExcess) :
    m * 2 ^ x < unitsBeyond := by
  unfold unitsBeyond
  generalize greatestExcess = t at hx
  calc m * 2 ^ x ≤ m * 2 ^ t := Nat.mul_le_mul_left m (Nat.pow_le_pow_right Nat.two_pos hx)
    _ < 2 ^ 53 * 2 ^ t := Nat.mul_lt_mul_of_pos_right hm (Nat.two_pow_pos t)

theorem unitsBeyond_pos : 0 < unitsBeyond :=
  (Nat.zero_le _).trans_lt (lt_unitsBeyond (Nat.two_pow_pos 53) (Nat.zero_le _))

theorem roundedWith_positive_mono {m n : Nat} (h : m ≤ n) :
    roundedWith .positive m ≤ roundedWith .positive n := by
  have hdigits := toDigits53_mono h
  unfold roundedWith
  by_cases hn : toDigits53 n < unitsBeyond
  · rw [if_pos hn, if_pos (hdigits.trans_lt hn)]
    exact ofUnits_le_ofUnits.mpr (Int.ofNat_le.mpr hdigits)
  · rw [if_neg hn]
    exact le_top

theorem roundedWith_negative_anti {m n : Nat} (h : m ≤ n) :
    roundedWith .negative n ≤ roundedWith .negative m := by
  have hdigits := toDigits53_mono h
  unfold roundedWith
  by_cases hn : toDigits53 n < unitsBeyond
  · rw [if_pos hn, if_pos (hdigits.trans_lt hn)]
    exact ofUnits_le_ofUnits.mpr (Int.neg_le_neg (Int.ofNat_le.mpr hdigits))
  · rw [if_neg hn]
    exact bot_le

theorem roundedWith_zero (s : Sign) : roundedWith s 0 = ofUnits 0 := by
  unfold roundedWith
  rw [if_pos (show toDigits53 0 < unitsBeyond from unitsBeyond_pos)]
  cases s <;> rfl

theorem rounded_apply (s : Sign) (n : Nat) : rounded (s.apply n) = roundedWith s n := by
  unfold rounded
  rcases Nat.eq_zero_or_pos n with rfl | hn
  · rw [roundedWith_zero, if_neg (by cases s <;> decide)]
    cases s <;> exact roundedWith_zero .positive
  · cases s with
    | negative =>
      change (if -(n : Int) < 0 then roundedWith .negative (-(n : Int)).natAbs else _) = _
      rw [if_pos (by omega), Int.natAbs_neg, Int.natAbs_natCast]
    | positive =>
      change (if (n : Int) < 0 then _ else roundedWith .positive (n : Int).natAbs) = _
      rw [if_neg (by omega), Int.natAbs_natCast]

theorem rounded_zero : rounded 0 = ofUnits 0 :=
  (rounded_apply .positive 0).trans (roundedWith_zero .positive)

theorem rounded_mono {m n : Int} (h : m ≤ n) : rounded m ≤ rounded n := by
  unfold rounded
  split_ifs with hm hn hn
  · exact roundedWith_negative_anti (by omega)
  · calc roundedWith .negative m.natAbs ≤ ofUnits 0 :=
          (roundedWith_negative_anti (Nat.zero_le _)).trans (roundedWith_zero .negative).le
      _ ≤ roundedWith .positive n.natAbs :=
          (roundedWith_zero .positive).ge.trans (roundedWith_positive_mono (Nat.zero_le _))
  · omega
  · exact roundedWith_positive_mono (by omega)

/-- What is a double already is not rounded. -/
theorem rounded_units {p : UnpackedFloat} (h : p.Canonical) : rounded p.units = ofUnits p.units := by
  cases p with
  | finite s m e hm =>
    obtain ⟨hlt, hlow, hhigh, -⟩ := h
    have hexponent : (e + 1074).toNat ≤ greatestExcess := by
      unfold greatestExcess
      omega
    have hdigits : toDigits53 (m * 2 ^ (e + 1074).toNat) = m * 2 ^ (e + 1074).toNat :=
      toDigits53_mul_two_pow hlt _
    have hbeyond : m * 2 ^ (e + 1074).toNat < unitsBeyond := lt_unitsBeyond hlt hexponent
    rw [units, rounded_apply, roundedWith, hdigits, if_pos hbeyond]
  | _ => exact rounded_zero

theorem place?_carried (s : Sign) {r x : Nat} (hr : r ≤ 2 ^ 53) :
    (carried s r (x - 1074)).place? = some (ofUnits (s.apply (r * 2 ^ x : Nat))) := by
  rw [← units_carried hr]
  unfold carried
  split_ifs <;> rfl

theorem place?_round (s : Sign) {m : Nat} (hm : m ≠ 0) (j : Nat) :
    (unpack .binary64 (pack .binary64 (round .binary64 s m (j - 1074)))).place? =
      some (roundedWith s (m * 2 ^ j)) := by
  have hr := roundDiv_excess_le (m * 2 ^ j)
  rw [round_eq hm, unpack_pack_carried hr le_roundDiv_excess]
  change (if toDigits53 (m * 2 ^ j) < unitsBeyond then _ else _ : UnpackedFloat).place? = _
  unfold roundedWith
  split_ifs
  · exact place?_carried s hr
  · rfl

theorem apply_mul_two_pow (s : Sign) (m j : Nat) :
    s.apply (m * 2 ^ j : Nat) = s.apply m * 2 ^ j := by
  cases s <;> simp [Sign.apply]

theorem place?_normalize (n : Int) (j : Nat) :
    (unpack .binary64 (pack .binary64 (normalize .binary64 n (j - 1074) .positive))).place? =
      some (rounded (n * 2 ^ j)) := by
  unfold normalize
  rcases lt_trichotomy n 0 with hn | rfl | hn
  · rw [compare_lt_iff_lt.mpr hn]
    have hsign : Sign.apply .negative (-n).toNat = n := by
      change -((-n).toNat : Int) = n
      omega
    rw [← hsign, ← apply_mul_two_pow, rounded_apply, hsign]
    exact place?_round .negative (by omega) j
  · rw [zero_mul, rounded_zero, compare_eq_iff_eq.mpr rfl]
    change (unpack .binary64 (pack .binary64 (zero .positive))).place? = _
    rw [unpack_pack_zero]
    rfl
  · rw [compare_gt_iff_gt.mpr hn]
    have hsign : Sign.apply .positive n.toNat = n := Int.toNat_of_nonneg hn.le
    rw [← hsign, ← apply_mul_two_pow, rounded_apply, hsign]
    exact place?_round .positive (by omega) j

theorem units_neg_finite (s : Sign) (m : Nat) (e : Int) (h : 0 < m) :
    (finite (-s) m e h).units = -(finite s m e h).units := by
  cases s
  · exact (Int.neg_neg _).symm
  · rfl

theorem unpack_pack_of_canonical {p : UnpackedFloat} (h : p.Canonical) :
    unpack .binary64 (pack .binary64 p) = p := by
  cases p with
  | infinity s => cases s <;> rfl
  | notANumber => rfl
  | zero s => exact unpack_pack_zero s
  | finite s m e hm =>
    obtain ⟨hlt, hlow, hhigh, hfull⟩ := h
    rw [unpack_pack_finite hm hlt hlow hfull, if_pos hhigh]

theorem place?_eq_ofUnits {p : UnpackedFloat} (h : p.isFinite = true) :
    p.place? = some (ofUnits p.units) := by
  cases p with
  | zero s => rfl
  | finite s m e hm => rfl
  | _ => cases h

theorem units_eq {s : Sign} {m j d : Nat} {e : Int} (hm : 0 < m) (h : e + 1074 = d + j) :
    (finite s m e hm).units = s.apply (m <<< d : Nat) * 2 ^ j := by
  rw [units, show (e + 1074).toNat = d + j by omega, Nat.shiftLeft_eq, pow_add, ← mul_assoc,
    apply_mul_two_pow]

/-- The difference of two finite doubles is rounded from their units. -/
theorem place?_sub {p q : UnpackedFloat} (hp : p.Canonical) (hq : q.Canonical)
    (hp' : p.isFinite = true) (hq' : q.isFinite = true) :
    (unpack .binary64 (pack .binary64 (sub .binary64 p q))).place? =
      some (rounded (p.units - q.units)) := by
  cases p with
  | zero s =>
    cases q with
    | zero t =>
      have hzero (r : Sign) : (unpack .binary64 (pack .binary64 (zero r))).place? =
          some (rounded (0 - 0)) := by
        rw [unpack_pack_zero, sub_zero, rounded_zero]
        rfl
      cases s <;> cases t <;> exact hzero _
    | finite t m e hm =>
      have hneg : (finite (-t) m e hm).Canonical := hq
      have hunits : (zero s).units - (finite t m e hm).units = (finite (-t) m e hm).units := by
        rw [units_neg_finite]
        exact zero_sub _
      rw [hunits, rounded_units hneg]
      change (unpack .binary64 (pack .binary64 (finite (-t) m e hm))).place? = _
      rw [unpack_pack_of_canonical hneg]
      rfl
    | _ => cases hq'
  | finite s m e hm =>
    cases q with
    | zero t =>
      have hunits : (finite s m e hm).units - (zero t).units = (finite s m e hm).units := sub_zero _
      rw [hunits, rounded_units hp]
      change (unpack .binary64 (pack .binary64 (finite s m e hm))).place? = _
      rw [unpack_pack_of_canonical hp]
      rfl
    | finite t n f hn =>
      obtain ⟨j, hj⟩ : ∃ j : Nat, min e f = j - 1074 := ⟨(min e f + 1074).toNat, by
        have he := hp.2.1
        have hf := hq.2.1
        omega⟩
      obtain ⟨d, hd⟩ : ∃ d : Nat, (e - min e f).toNat = d := ⟨_, rfl⟩
      obtain ⟨c, hc⟩ : ∃ c : Nat, (f - min e f).toNat = c := ⟨_, rfl⟩
      have hsub : sub .binary64 (finite s m e hm) (finite t n f hn) =
          normalize .binary64 (s.apply (m <<< d : Nat) - t.apply (n <<< c : Nat)) (j - 1074)
            .positive := by
        rw [← hj, ← hd, ← hc]
        rfl
      rw [hsub, place?_normalize, sub_mul, units_eq hm (show e + 1074 = d + j by omega),
        units_eq hn (show f + 1074 = c + j by omega)]
    | _ => cases hq'
  | _ => cases hp'

theorem ofUnits_ne_bot (n : Int) : ofUnits n ≠ ⊥ := (Extended.bot_lt_of _).ne'

theorem ofUnits_ne_top (n : Int) : ofUnits n ≠ ⊤ := (Extended.of_lt_top _).ne

/-- What lies inside the line is finite. -/
theorem place?_eq_some {p : UnpackedFloat} {a : Extended} (h : p.place? = some a) :
    (p = infinity .negative ∧ a = ⊥) ∨ (p.isFinite = true ∧ a = ofUnits p.units) ∨
      (p = infinity .positive ∧ a = ⊤) := by
  cases p with
  | notANumber => cases h
  | infinity s =>
    cases s with
    | negative => exact Or.inl ⟨rfl, (Option.some.inj h).symm⟩
    | positive => exact Or.inr (Or.inr ⟨rfl, (Option.some.inj h).symm⟩)
  | zero s => exact Or.inr (Or.inl ⟨rfl, (Option.some.inj h).symm⟩)
  | finite s m e hm => exact Or.inr (Or.inl ⟨rfl, (Option.some.inj h).symm⟩)

theorem finite_of_place? {p : UnpackedFloat} {a : Extended} (h : p.place? = some a) (hbot : a ≠ ⊥)
    (htop : a ≠ ⊤) : p.isFinite = true ∧ a = ofUnits p.units := by
  rcases place?_eq_some h with ⟨-, h⟩ | h | ⟨-, h⟩
  · exact absurd h hbot
  · exact h
  · exact absurd h htop

theorem sub_eq_infinity {p q : UnpackedFloat} {a b : Extended} (hp : p.place? = some a)
    (hq : q.place? = some b) (h : (a = ⊤ ∧ b ≠ ⊤) ∨ (b = ⊥ ∧ a ≠ ⊥)) :
    sub .binary64 p q = infinity .positive := by
  rcases place?_eq_some hp with ⟨rfl, rfl⟩ | ⟨hp', rfl⟩ | ⟨rfl, rfl⟩ <;>
    rcases place?_eq_some hq with ⟨rfl, rfl⟩ | ⟨hq', rfl⟩ | ⟨rfl, rfl⟩
  · simp at h
  · simp [ofUnits_ne_bot] at h
  · simp at h
  · cases p <;> first | rfl | cases hp'
  · simp [ofUnits_ne_bot, ofUnits_ne_top] at h
  · simp [ofUnits_ne_top] at h
  · rfl
  · cases q <;> first | rfl | cases hq'
  · simp at h

theorem sub_place?_of_bot_or_top {p q : UnpackedFloat} {a b : Extended} (hp : p.place? = some a)
    (hq : q.place? = some b) (h : a = ⊥ ∨ b = ⊤) :
    sub .binary64 p q = infinity .negative ∨ sub .binary64 p q = notANumber := by
  rcases place?_eq_some hp with ⟨rfl, rfl⟩ | ⟨hp', rfl⟩ | ⟨rfl, rfl⟩ <;>
    rcases place?_eq_some hq with ⟨rfl, rfl⟩ | ⟨hq', rfl⟩ | ⟨rfl, rfl⟩
  · exact Or.inr rfl
  · cases q <;> first | exact Or.inl rfl | cases hq'
  · exact Or.inl rfl
  · simp [ofUnits_ne_bot] at h
  · simp [ofUnits_ne_bot, ofUnits_ne_top] at h
  · cases p <;> first | exact Or.inl rfl | cases hp'
  · simp at h
  · simp [ofUnits_ne_top] at h
  · exact Or.inr rfl

/-- A difference grows with what it is taken from, and with less that is taken away. -/
theorem place?_sub_mono {p q p' q' : UnpackedFloat} {a b a' b' d : Extended}
    (hcp : p.Canonical) (hcq : q.Canonical) (hcp' : p'.Canonical) (hcq' : q'.Canonical)
    (hp : p.place? = some a) (hq : q.place? = some b) (hp' : p'.place? = some a')
    (hq' : q'.place? = some b') (ha : a ≤ a') (hb : b' ≤ b)
    (hd : (unpack .binary64 (pack .binary64 (sub .binary64 p q))).place? = some d)
    (hne : d ≠ ⊥) :
    ∃ d', (unpack .binary64 (pack .binary64 (sub .binary64 p' q'))).place? = some d' ∧ d ≤ d' := by
  have hinner : a ≠ ⊥ ∧ b ≠ ⊤ := by
    rw [← not_or]
    intro hend
    rcases sub_place?_of_bot_or_top hp hq hend with hsub | hsub
    · rw [hsub] at hd
      exact hne (Option.some.inj hd).symm
    · rw [hsub] at hd
      cases hd
  have ha' : a' ≠ ⊥ := fun h => hinner.1 (le_bot_iff.mp (h ▸ ha))
  have hb' : b' ≠ ⊤ := fun h => hinner.2 (top_le_iff.mp (h ▸ hb))
  by_cases htop : (a' = ⊤ ∧ b' ≠ ⊤) ∨ (b' = ⊥ ∧ a' ≠ ⊥)
  · rw [sub_eq_infinity hp' hq' htop]
    exact ⟨⊤, rfl, le_top⟩
  · -- All four are finite.
    obtain ⟨ha'', hb''⟩ : a' ≠ ⊤ ∧ b' ≠ ⊥ := by tauto
    have ha₀ : a ≠ ⊤ := fun h => ha'' (top_le_iff.mp (h ▸ ha))
    have hb₀ : b ≠ ⊥ := fun h => hb'' (le_bot_iff.mp (h ▸ hb))
    obtain ⟨hfp, rfl⟩ := finite_of_place? hp hinner.1 ha₀
    obtain ⟨hfq, rfl⟩ := finite_of_place? hq hb₀ hinner.2
    obtain ⟨hfp', rfl⟩ := finite_of_place? hp' ha' ha''
    obtain ⟨hfq', rfl⟩ := finite_of_place? hq' hb'' hb'
    rw [place?_sub hcp hcq hfp hfq] at hd
    refine ⟨_, place?_sub hcp' hcq' hfp' hfq', ?_⟩
    rw [ofUnits_le_ofUnits] at ha hb
    rw [← Option.some.inj hd]
    exact rounded_mono (Int.sub_le_sub ha hb)

end Float.Model.UnpackedFloat

namespace Inquiry.Value

open Decimal Float.Model.UnpackedFloat

theorem lt_iff (x y : Float) : x < y ↔ x.toModel.unpack.lt y.toModel.unpack = true := by
  change decide (x.toModel.lt y.toModel = true) = true ↔ _
  exact decide_eq_true_iff

theorem unpack_zero : (0 : Float).toModel.unpack = zero .positive := rfl

/-- The fraction that the parts of a double make is its number of units. -/
theorem ofBinary_value_eq {b : Binary} {s : Sign} {m : Nat} {e : Int}
    (h : (b.negative, b.mantissa, b.exponent) = (s == .negative, m, e)) (he : -1074 ≤ e) :
    Exact.value (.ofBinary b) = (s.apply (m * 2 ^ (e + 1074).toNat : Nat) : ℚ) / 2 ^ 1074 := by
  obtain ⟨hs, hm, he'⟩ : b.negative = (s == .negative) ∧ b.mantissa = m ∧ b.exponent = e := by
    simpa using h
  obtain ⟨j, hj⟩ : ∃ j : Nat, e + 1074 = j := ⟨(e + 1074).toNat, by omega⟩
  have hpow : (2 : ℚ) ^ e = 2 ^ j / 2 ^ 1074 := by
    rw [show e = (j : Int) - (1074 : Nat) by omega, zpow_sub₀ (by norm_num), zpow_natCast,
      zpow_natCast]
  rw [Exact.ofBinary_value, hs, hm, he', hpow, hj, Int.toNat_natCast]
  generalize (2 : ℚ) ^ 1074 = c
  cases s with
  | negative =>
    simp only [signOf, Sign.apply, beq_self_eq_true, if_true]
    push_cast
    ring
  | positive =>
    simp only [signOf, Sign.apply]
    push_cast
    rw [if_neg (by decide)]
    ring

/-- A double lies where its bits say. -/
theorem rank?_float (x : Float) : (Value.float x).rank? = x.toModel.unpack.place? := by
  have hbinary := ofFloat_eq_binary? x
  have hcanonical : x.toModel.unpack.Canonical := unpack_canonical _
  have hnan : x.isNaN = x.toModel.unpack.isNaN := rfl
  have hnegative : decide (x < 0) = x.toModel.unpack.lt (zero .positive) := by
    rw [Bool.eq_iff_iff, decide_eq_true_iff, lt_iff, unpack_zero]
  unfold rank? Value.place? baseTen? infinite?
  dsimp only
  rw [hnan, hnegative]
  revert hbinary hcanonical
  generalize x.toModel.unpack = p
  intro hbinary hcanonical
  cases p with
  | notANumber =>
    rw [Option.map_eq_none_iff.mp hbinary]
    rfl
  | infinity s =>
    rw [Option.map_eq_none_iff.mp hbinary]
    cases s <;> rfl
  | zero s =>
    obtain ⟨b, hb, hparts⟩ := Option.map_eq_some_iff.mp hbinary
    rw [hb]
    change some (Extended.of (Exact.value (.ofBinary b))) = _
    rw [ofBinary_value_eq hparts le_rfl, zero_mul]
    cases s <;> rfl
  | finite s m e hm =>
    obtain ⟨b, hb, hparts⟩ := Option.map_eq_some_iff.mp hbinary
    rw [hb]
    exact congrArg (fun q => some (Extended.of q)) (ofBinary_value_eq hparts hcanonical.2.1)

/-- A difference of doubles grows with what it is taken from, and with less that is taken away. -/
theorem rank?_sub_mono {x y x' y' : Float} {a b a' b' d : Extended}
    (hx : (Value.float x).rank? = some a) (hy : (Value.float y).rank? = some b)
    (hx' : (Value.float x').rank? = some a') (hy' : (Value.float y').rank? = some b')
    (ha : a ≤ a') (hb : b' ≤ b) (hd : (Value.float (x - y)).rank? = some d) (hne : d ≠ ⊥) :
    ∃ d', (Value.float (x' - y')).rank? = some d' ∧ d ≤ d' := by
  rw [rank?_float] at *
  exact place?_sub_mono (unpack_canonical _) (unpack_canonical _) (unpack_canonical _)
    (unpack_canonical _) hx hy hx' hy' ha hb hd hne

end Inquiry.Value
