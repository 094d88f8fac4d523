import Inquiry.Decimal.Nearest
import Inquiry.Proofs.Decimal.Doubles

/-!
# Integers as doubles

An integer of at most 53 binary digits is a double, and it is the one that is taken for it.
-/
namespace Inquiry.Decimal

open Float.Model Float.Model.UnpackedFloat

theorem unpack_ofBits (bits : UInt64) :
    (Float.ofBits bits).toModel.unpack = unpack .binary64 bits.toBitVec :=
  unpack_pack_of_canonical (unpack_canonical _)

/-- The sign that bits have. -/
def signFor (negative : Bool) : Sign := if negative then .negative else .positive

/-- The bits of a mantissa with all its digits are the bits of that number. -/
theorem unpack_bitsOf {negative : Bool} {m : Nat} {e : Int} (hm : 2 ^ 52 ≤ m) (hm' : m < 2 ^ 53)
    (he : -1074 ≤ e) (he' : e ≤ 971) :
    (Float.ofBits (UInt64.ofNat (bitsOf negative m e))).toModel.unpack =
      finite (signFor negative) m e ((Nat.two_pow_pos 52).trans_le hm) := by
  have hbits : bitsOf negative m e =
      (if negative then 2 ^ 63 else 0) + ((e + 1075).toNat * 2 ^ 52 + (m - 2 ^ 52)) := by
    unfold bitsOf
    dsimp only
    rw [if_neg (not_lt.mpr hm)]
  have hnat : (UInt64.ofNat (bitsOf negative m e)).toBitVec.toNat =
      (if negative then 2 ^ 63 else 0) + ((e + 1075).toNat * 2 ^ 52 + (m - 2 ^ 52)) := by
    rw [UInt64.toNat_toBitVec, UInt64.toNat_ofNat', hbits]
    refine Nat.mod_eq_of_lt ?_
    split <;> omega
  rw [unpack_ofBits]
  generalize (UInt64.ofNat (bitsOf negative m e)).toBitVec = b at hnat
  have hfield : (@unpackExponent .binary64 b).toNat = (e + 1075).toNat := by
    rw [toNat_unpackExponent, hnat]
    split <;> omega
  have hfraction : (@unpackMantissa .binary64 b).toNat = m - 2 ^ 52 := by
    rw [toNat_unpackMantissa, hnat]
    split <;> omega
  have hsign : Sign.ofBitVec (@unpackSign .binary64 b) = signFor negative := by
    rw [ofBitVec_unpackSign, hnat]
    cases negative
    · rw [if_neg (by rw [if_neg Bool.false_ne_true]; omega)]
      rfl
    · rw [if_pos (by rw [if_pos rfl]; omega)]
      rfl
  have hcases := unpack_cases b
  have hmantissa : 2 ^ 52 + (m - 2 ^ 52) = m := by omega
  have hexponent : ((e + 1075).toNat : Int) - 1075 = e := by omega
  simp only [hfield, hfraction, hsign, hmantissa, hexponent] at hcases
  rcases hcases with ⟨hc, -⟩ | ⟨hc, -⟩ | ⟨hc, -⟩ | ⟨-, -, _, h⟩
  · omega
  · omega
  · omega
  · exact h

/-- A number that is shifted to 53 digits. -/
theorem shifted_digits {n k : Nat} (hn : n ≠ 0) (h : n.log2 + k = 52) :
    2 ^ 52 ≤ n * 2 ^ k ∧ n * 2 ^ k < 2 ^ 53 := by
  constructor
  · calc 2 ^ 52 = 2 ^ n.log2 * 2 ^ k := by rw [← pow_add, h]
      _ ≤ n * 2 ^ k := Nat.mul_le_mul_right _ (Nat.log2_self_le hn)
  · calc n * 2 ^ k < 2 ^ (n.log2 + 1) * 2 ^ k :=
          Nat.mul_lt_mul_of_pos_right Nat.lt_log2_self (Nat.two_pow_pos k)
      _ = 2 ^ 53 := by rw [← pow_add, Nat.add_right_comm, h]

theorem mantissaExponent_of_lt {n : Nat} (hn : n ≠ 0) (h : n < 2 ^ 53) :
    mantissaExponent n 1 = (n.log2 : Int) - 52 := by
  have hlog : n.log2 < 53 := (Nat.log2_lt hn).mpr h
  obtain ⟨k, hk⟩ : ∃ k, 52 - n.log2 = k := ⟨_, rfl⟩
  obtain ⟨hlong, -⟩ := shifted_digits hn (show n.log2 + k = 52 by omega)
  unfold mantissaExponent
  dsimp only
  rw [show (Nat.log2 1 : Int) = 0 from rfl,
    show (-((n.log2 : Int) - 0 - 52)).toNat = k by omega,
    show ((n.log2 : Int) - 0 - 52).toNat = 0 by omega, pow_zero, mul_one, mul_one,
    if_neg (by simpa using hlong)]
  omega

/-- An integer of at most 53 digits is a double. -/
theorem nearest?_of_lt {n : Int} (h : n.natAbs < 2 ^ 53) :
    ∃ x, nearest? n 1 = some x ∧ x.toModel.unpack.isFinite = true ∧
      x.toModel.unpack.units = n * 2 ^ 1074 := by
  by_cases hzero : n = 0
  · subst hzero
    refine ⟨0.0, rfl, rfl, ?_⟩
    rw [zero_mul]
    rfl
  · obtain ⟨m, hm⟩ : ∃ m, n.natAbs = m := ⟨_, rfl⟩
    have hne : m ≠ 0 := by omega
    rw [hm] at h
    have hlog : m.log2 < 53 := (Nat.log2_lt hne).mpr h
    obtain ⟨k, hk⟩ : ∃ k, 52 - m.log2 = k := ⟨_, rfl⟩
    obtain ⟨hlong, hshort⟩ := shifted_digits hne (show m.log2 + k = 52 by omega)
    have hnearest : nearest? n 1 =
        some (Float.ofBits (UInt64.ofNat (bitsOf (n < 0) (m * 2 ^ k) ((m.log2 : Int) - 52)))) := by
      unfold nearest?
      dsimp only
      rw [if_neg hzero, hm, mantissaExponent_of_lt hne h,
        show (-((m.log2 : Int) - 52)).toNat = k by omega,
        show ((m.log2 : Int) - 52).toNat = 0 by omega, pow_zero, mul_one, roundDiv_one,
        if_neg hshort.ne]
      dsimp only
      rw [if_neg (by omega)]
    have hunpack := @unpack_bitsOf (decide (n < 0)) _ ((m.log2 : Int) - 52) hlong hshort (by omega)
      (by omega)
    refine ⟨_, hnearest, ?_, ?_⟩
    · rw [hunpack]
      rfl
    · have hsign : (signFor (decide (n < 0))).apply m = n := by
        unfold signFor Sign.apply
        by_cases hn : n < 0
        · rw [decide_eq_true hn]
          change -(m : Int) = n
          omega
        · rw [decide_eq_false hn]
          change (m : Int) = n
          omega
      rw [hunpack, units, show ((m.log2 : Int) - 52 + 1074).toNat = m.log2 + 1022 by omega,
        mul_assoc, ← pow_add, show k + (m.log2 + 1022) = 1074 by omega, apply_mul_two_pow, hsign]

end Inquiry.Decimal
