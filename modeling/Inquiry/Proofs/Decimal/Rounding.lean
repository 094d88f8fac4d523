import Inquiry.Decimal.Fixed
import Mathlib.Data.Nat.Log
import Mathlib.Tactic.Ring

/-!
# Rounding to 53 binary digits

The quotient that a mantissa with its round and sticky bits stands for, and what shifts make of it: a
rounded mantissa is the nearest integer to that quotient. Whole numbers rounded to the digits of a
double keep their order.
-/
namespace Inquiry.Decimal

theorem div_le_roundDiv (num den : Nat) : num / den ≤ roundDiv num den := by
  unfold roundDiv
  dsimp only
  split_ifs <;> omega

theorem roundDiv_le_succ (num den : Nat) : roundDiv num den ≤ num / den + 1 := by
  unfold roundDiv
  dsimp only
  split_ifs <;> omega

theorem roundDiv_mono {m n : Nat} (den : Nat) (h : m ≤ n) : roundDiv m den ≤ roundDiv n den := by
  rcases Nat.eq_or_lt_of_le (Nat.div_le_div_right (c := den) h) with heq | hlt
  · have hmod : m % den ≤ n % den := by
      have hm := Nat.div_add_mod m den
      have hn := Nat.div_add_mod n den
      rw [heq] at hm
      omega
    unfold roundDiv
    dsimp only
    rw [heq]
    split_ifs <;> omega
  · exact (roundDiv_le_succ m den).trans ((Nat.succ_le_of_lt hlt).trans (div_le_roundDiv n den))

@[simp] theorem roundDiv_one (n : Nat) : roundDiv n 1 = n := by
  rw [roundDiv_exact Nat.one_pos (Nat.mod_one n), Nat.div_one]

theorem roundDiv_mul_right {c : Nat} (hc : 0 < c) (num den : Nat) :
    roundDiv (num * c) (den * c) = roundDiv num den := by
  unfold roundDiv
  dsimp only
  rw [Nat.mul_div_mul_right _ _ hc, Nat.mul_mod_mul_right, ← mul_assoc]
  simp only [Nat.mul_lt_mul_right hc]

/-- The binary places that a number has beyond the digits of a double. -/
def excess (n : Nat) : Nat := n.log2 - 52

/-- The whole number nearest to one among those of 53 binary digits and zeros after them. -/
def toDigits53 (n : Nat) : Nat := roundDiv n (2 ^ excess n) * 2 ^ excess n

theorem excess_eq_zero {n : Nat} (h : n < 2 ^ 53) : excess n = 0 := by
  unfold excess
  rcases Nat.eq_zero_or_pos n with rfl | hn
  · rfl
  · have hlog := (Nat.log2_lt hn.ne').mpr h
    omega

theorem log2_mul_two_pow {m : Nat} (hm : m ≠ 0) (k : Nat) : (m * 2 ^ k).log2 = m.log2 + k := by
  refine (Nat.log2_eq_iff (Nat.mul_ne_zero hm (Nat.two_pow_pos k).ne')).mpr ⟨?_, ?_⟩
  · rw [pow_add]
    exact Nat.mul_le_mul_right _ (Nat.log2_self_le hm)
  · rw [Nat.add_right_comm, pow_add]
    exact Nat.mul_lt_mul_of_pos_right Nat.lt_log2_self (Nat.two_pow_pos k)

/-- What has no more than 53 digits before its zeros is not rounded. -/
theorem toDigits53_mul_two_pow {m : Nat} (hm : m < 2 ^ 53) (k : Nat) :
    toDigits53 (m * 2 ^ k) = m * 2 ^ k := by
  rcases Nat.eq_zero_or_pos m with rfl | hpos
  · rw [zero_mul]
    rfl
  · have hlog : m.log2 < 53 := (Nat.log2_lt hpos.ne').mpr hm
    have hle : excess (m * 2 ^ k) ≤ k := by
      unfold excess
      rw [log2_mul_two_pow hpos.ne']
      omega
    have hdvd : 2 ^ excess (m * 2 ^ k) ∣ m * 2 ^ k :=
      Dvd.dvd.mul_left (Nat.pow_dvd_pow 2 hle) m
    rw [toDigits53, roundDiv_exact (Nat.two_pow_pos _) (Nat.mod_eq_zero_of_dvd hdvd),
      Nat.div_mul_cancel hdvd]

theorem lt_two_pow_excess (n : Nat) : n < 2 ^ 53 * 2 ^ excess n := by
  rw [← pow_add]
  refine Nat.lt_log2_self.trans_le (Nat.pow_le_pow_right Nat.two_pos ?_)
  unfold excess
  omega

theorem roundDiv_excess_le (n : Nat) : roundDiv n (2 ^ excess n) ≤ 2 ^ 53 := by
  have hdiv : n / 2 ^ excess n < 2 ^ 53 :=
    (Nat.div_lt_iff_lt_mul (Nat.two_pow_pos _)).mpr (lt_two_pow_excess n)
  exact (roundDiv_le_succ n _).trans hdiv

theorem two_pow_excess_le {n : Nat} (h : excess n ≠ 0) : 2 ^ 52 * 2 ^ excess n ≤ n := by
  have hn : n ≠ 0 := by
    rintro rfl
    exact h rfl
  rw [← pow_add]
  refine le_trans (Nat.pow_le_pow_right Nat.two_pos ?_) (Nat.log2_self_le hn)
  unfold excess at h ⊢
  omega

/-- A number with excess places keeps 53 digits. -/
theorem le_roundDiv_excess {n : Nat} (h : excess n ≠ 0) : 2 ^ 52 ≤ roundDiv n (2 ^ excess n) := by
  refine le_trans ?_ (div_le_roundDiv n _)
  rw [Nat.le_div_iff_mul_le (Nat.two_pow_pos _)]
  exact two_pow_excess_le h

theorem excess_mono {m n : Nat} (h : m ≤ n) : excess m ≤ excess n := by
  rcases Nat.eq_zero_or_pos m with rfl | hm
  · exact Nat.zero_le _
  · have hlog : m.log2 ≤ n.log2 :=
      (Nat.le_log2 (by omega)).mpr ((Nat.log2_self_le hm.ne').trans h)
    unfold excess
    omega

theorem toDigits53_mono {m n : Nat} (h : m ≤ n) : toDigits53 m ≤ toDigits53 n := by
  rcases Nat.eq_or_lt_of_le (excess_mono h) with heq | hlt
  · unfold toDigits53
    rw [heq]
    exact Nat.mul_le_mul_right _ (roundDiv_mono _ h)
  · -- The first one rounds to no more than where the places of the second one begin.
    calc toDigits53 m ≤ 2 ^ 53 * 2 ^ excess m := Nat.mul_le_mul_right _ (roundDiv_excess_le m)
      _ = 2 ^ 52 * 2 ^ (excess m + 1) := by ring
      _ ≤ 2 ^ 52 * 2 ^ excess n := Nat.mul_le_mul_left _ (Nat.pow_le_pow_right Nat.two_pos hlt)
      _ ≤ toDigits53 n := Nat.mul_le_mul_right _ (le_roundDiv_excess (by omega))

end Inquiry.Decimal

namespace Float.Model.UnpackedFloat.ExtendedMantissa

open Inquiry.Decimal

/-- The mantissa and its two bits stand for a quotient: for its whole part, whether the rest makes at
least half, and whether the rest is neither nothing nor half. -/
structure StandsFor (em : ExtendedMantissa) (num den : Nat) : Prop where
  whole : em.mantissa = num / den
  round : em.roundBit = true ↔ den ≤ 2 * (num % den)
  sticky : em.stickyBit = true ↔ 2 * (num % den) ≠ 0 ∧ 2 * (num % den) ≠ den

variable {em : ExtendedMantissa} {num den : Nat}

theorem standsFor_exact (m : Nat) : (ofMantissaAndAccuracy m .exact).StandsFor m 1 := by
  constructor <;> simp [ofMantissaAndAccuracy, Nat.mod_one]

theorem StandsFor.shiftRightOne (h : em.StandsFor num den) (hden : 0 < den) :
    em.shiftRightOne.StandsFor num (den * 2) := by
  have hrest : num % (den * 2) = num % den + den * (num / den % 2) := Nat.mod_mul
  have hlt := Nat.mod_lt num hden
  have hwhole : num / den % 2 = 0 ∨ num / den % 2 = 1 := Nat.mod_two_eq_zero_or_one _
  have hany : (em.roundBit || em.stickyBit) = true ↔ num % den ≠ 0 := by
    rw [Bool.or_eq_true, h.round, h.sticky]
    omega
  refine ⟨?_, ?_, ?_⟩
  · change em.mantissa / 2 = _
    rw [h.whole, Nat.div_div_eq_div_mul]
  · change (em.mantissa % 2 != 0) = true ↔ _
    rw [bne_iff_ne, h.whole, hrest]
    rcases hwhole with hwhole | hwhole <;> rw [hwhole] <;> omega
  · change (em.roundBit || em.stickyBit) = true ↔ _
    rw [hany, hrest]
    rcases hwhole with hwhole | hwhole <;> rw [hwhole] <;> omega

theorem StandsFor.shiftRight (h : em.StandsFor num den) (hden : 0 < den) (k : Nat) :
    (em >>> k).StandsFor num (den * 2 ^ k) := by
  induction k with
  | zero =>
    rw [pow_zero, mul_one]
    exact h
  | succ k ih =>
    rw [pow_succ, ← mul_assoc]
    exact ih.shiftRightOne (Nat.mul_pos hden (Nat.two_pow_pos k))

theorem StandsFor.roundedMantissa_eq (h : em.StandsFor num den) (hden : 0 < den) :
    em.roundedMantissa = roundDiv num den := by
  have hlt := Nat.mod_lt num hden
  obtain ⟨m, round, sticky⟩ := em
  obtain ⟨rfl, hround, hsticky⟩ := h
  dsimp only at hround hsticky
  unfold roundedMantissa roundDiv
  cases round <;> cases sticky <;>
    simp only [accuracy, Accuracy.roundToNearestEven, Bool.false_eq_true, false_iff, true_iff,
      not_and_or, not_not, not_le] at hround hsticky ⊢ <;>
    split_ifs <;> omega

end Float.Model.UnpackedFloat.ExtendedMantissa
