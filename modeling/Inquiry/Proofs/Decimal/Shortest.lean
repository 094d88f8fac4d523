import Inquiry.Decimal.Shortest
import Inquiry.Proofs.Decimal.Interval

/-!
# The shortest decimal of a double

Seventeen digits are always enough, so the search ends with a decimal that the double stands for, and that
decimal is read as the double.
-/
namespace Inquiry.Decimal.Shortest

theorem ten_pow_le_of_estimate {m n : Nat} (h : 100000 * n ≤ 30103 * m) (hm : m ≤ 1100) :
    10 ^ n ≤ 2 ^ (m + 1) := by
  refine (Nat.pow_le_pow_iff_left (show 59 ≠ 0 by decide)).mp ?_
  calc (10 ^ n) ^ 59 = (10 ^ 59) ^ n := by rw [← pow_mul, ← pow_mul, Nat.mul_comm]
    _ ≤ (2 ^ 196) ^ n := Nat.pow_le_pow_left (by norm_num) n
    _ = 2 ^ (196 * n) := (pow_mul ..).symm
    _ ≤ 2 ^ ((m + 1) * 59) := Nat.pow_le_pow_right Nat.two_pos (by omega)
    _ = (2 ^ (m + 1)) ^ 59 := pow_mul ..

theorem two_pow_le_of_estimate {m n : Nat} (h : 30103 * m ≤ 100000 * n) (hm : m ≤ 1100) :
    2 ^ m ≤ 10 ^ (n + 1) := by
  refine (Nat.pow_le_pow_iff_left (show 93 ≠ 0 by decide)).mp ?_
  calc (2 ^ m) ^ 93 = (2 ^ 93) ^ m := by rw [← pow_mul, ← pow_mul, Nat.mul_comm]
    _ ≤ (10 ^ 28) ^ m := Nat.pow_le_pow_left (by norm_num) m
    _ = 10 ^ (28 * m) := (pow_mul ..).symm
    _ ≤ 10 ^ ((n + 1) * 93) := Nat.pow_le_pow_right (by decide) (by omega)
    _ = (10 ^ (n + 1)) ^ 93 := pow_mul ..

/-- An estimate of the exponent, less two, is not too great. -/
theorem ten_zpow_le {d e : ℤ} (h : 100000 * e ≤ 30103 * d) (hlow : -1100 ≤ d) (hhigh : d ≤ 1100) :
    (10 : ℚ) ^ (e - 2) ≤ 2 ^ (d - 1) := by
  rcases le_or_gt 0 d with hd | hd
  · obtain ⟨m, rfl⟩ := Int.eq_ofNat_of_zero_le hd
    have hpow : (10 : ℚ) ^ e.toNat ≤ 2 ^ (m + 1) := by
      exact_mod_cast ten_pow_le_of_estimate (show 100000 * e.toNat ≤ 30103 * m by omega) (by omega)
    calc (10 : ℚ) ^ (e - 2) ≤ 10 ^ ((e.toNat : ℤ) - 2) := zpow_le_zpow_right₀ (by norm_num) (by omega)
      _ = 10 ^ e.toNat / 100 := by
        rw [zpow_sub₀ (by norm_num), zpow_natCast]
        norm_num
      _ ≤ 2 ^ (m + 1) / 100 := by gcongr
      _ ≤ 2 ^ (m + 1) / 4 := by gcongr; norm_num
      _ = 2 ^ ((m : ℤ) - 1) := by
        rw [pow_succ, zpow_sub₀ (by norm_num), zpow_natCast]
        ring
  · obtain ⟨m, hm⟩ := Int.eq_ofNat_of_zero_le (show 0 ≤ -d by omega)
    obtain ⟨n, hn⟩ := Int.eq_ofNat_of_zero_le (show 0 ≤ -e by omega)
    have hpow : (2 : ℚ) ^ m ≤ 10 ^ (n + 1) := by
      exact_mod_cast two_pow_le_of_estimate (show 30103 * m ≤ 100000 * n by omega) (by omega)
    have hpow' : (2 : ℚ) ^ (m + 1) ≤ 10 ^ (n + 2) := by
      calc (2 : ℚ) ^ (m + 1) = 2 ^ m * 2 := pow_succ ..
        _ ≤ 10 ^ (n + 1) * 10 := by gcongr; norm_num
        _ = 10 ^ (n + 2) := (pow_succ ..).symm
    rw [show e - 2 = -((n + 2 : Nat) : ℤ) by omega, show d - 1 = -((m + 1 : Nat) : ℤ) by omega,
      zpow_neg, zpow_neg, zpow_natCast, zpow_natCast]
    exact inv_anti₀ (by positivity) hpow'

theorem log2_bounds {num den : Nat} (hnum : num ≠ 0) (hden : 0 < den) :
    (2 : ℚ) ^ ((num.log2 : ℤ) - den.log2 - 1) ≤ num / den := by
  have hden' : (0 : ℚ) < den := Nat.cast_pos.mpr hden
  have hlow : (2 : ℚ) ^ num.log2 ≤ num := by exact_mod_cast Nat.log2_self_le hnum
  have hhigh : (den : ℚ) ≤ 2 ^ (den.log2 + 1) := by
    exact_mod_cast (@Nat.lt_log2_self den).le
  rw [le_div_iff₀ hden']
  calc (2 : ℚ) ^ ((num.log2 : ℤ) - den.log2 - 1) * den ≤
        2 ^ ((num.log2 : ℤ) - den.log2 - 1) * 2 ^ (den.log2 + 1) := by gcongr
    _ = 2 ^ num.log2 := by
      rw [← zpow_natCast, ← zpow_natCast, ← zpow_add₀ two_ne_zero]
      congr 1
      push_cast
      ring
    _ ≤ num := hlow

/-- The leading digit is not before the number. -/
theorem leadingExponent_le {num den : Nat} (hnum : num ≠ 0) (hden : 0 < den)
    (hlow : -1100 ≤ (num.log2 : ℤ) - den.log2) (hhigh : (num.log2 : ℤ) - den.log2 ≤ 1100) :
    (10 : ℚ) ^ leadingExponent num den ≤ num / den := by
  have hden' : (0 : ℚ) < den := Nat.cast_pos.mpr hden
  have hbelow {e : ℤ} (h : ¬ decide (num * 10 ^ (-e).toNat < den * 10 ^ e.toNat) = true) :
      (10 : ℚ) ^ e ≤ num / den := by
    rw [decide_eq_true_iff, not_lt] at h
    have h' : (den : ℚ) * 10 ^ e.toNat ≤ num * 10 ^ (-e).toNat := by exact_mod_cast h
    rw [zpow_eq_div (by norm_num), div_le_div_iff₀ (by positivity) hden', mul_comm]
    exact h'
  unfold leadingExponent
  dsimp only
  split_ifs with h1 h2 h3 h4
  · refine (ten_zpow_le (d := (num.log2 : ℤ) - den.log2) ?_ hlow hhigh).trans
      (log2_bounds hnum hden)
    rw [Int.fdiv_eq_ediv_of_nonneg _ (by decide)]
    omega
  · exact hbelow h2
  · exact hbelow h1
  · exact hbelow h3
  · exact hbelow h4

section Grid

variable {b : Binary} {grid : ℤ}

/-- A quarter of the last place of the double, and a step of the grid, in common units. -/
def quarterUnits (b : Binary) (grid : ℤ) : Nat :=
  2 ^ (b.exponent - 2).toNat * 10 ^ (-grid).toNat

def stepUnits (b : Binary) (grid : ℤ) : Nat :=
  2 ^ (-(b.exponent - 2)).toNat * 10 ^ grid.toNat

theorem quarterUnits_pos : 0 < quarterUnits b grid :=
  Nat.mul_pos (Nat.two_pow_pos _) (pow_pos (by decide) _)

theorem stepUnits_pos : 0 < stepUnits b grid :=
  Nat.mul_pos (Nat.two_pow_pos _) (pow_pos (by decide) _)

theorem steps_eq (n : Nat) :
    (n * 10 ^ grid : ℚ) / 2 ^ (b.exponent - 2) * quarterUnits b grid = (n * stepUnits b grid : Nat) := by
  unfold quarterUnits stepUnits
  rw [zpow_eq_div (by norm_num : (10 : ℚ) ≠ 0), zpow_eq_div (two_ne_zero : (2 : ℚ) ≠ 0)]
  push_cast
  field_simp

/-- Whether a multiple of the step is one of the numbers that the double stands for. -/
def inside (b : Binary) (grid : ℤ) (n : Nat) : Bool :=
  let u := quarterUnits b grid
  let g := stepUnits b grid
  let low := (4 * b.mantissa - if b.narrowBelow then 1 else 2) * u
  let high := (4 * b.mantissa + 2) * u
  if b.mantissa % 2 = 0 then low ≤ n * g && n * g ≤ high else low < n * g && n * g < high

theorem inside_iff (hb : b.mantissa ≠ 0) (n : Nat) :
    inside b grid n = true ↔ b.Covers (n * 10 ^ grid) := by
  rw [Binary.covers_iff quarterUnits_pos (steps_eq n)]
  unfold inside Binary.reach
  obtain ⟨r, hr⟩ : ∃ r, (if b.narrowBelow = true then 1 else 2) = r := ⟨_, rfl⟩
  have hr' : r ≤ 2 := by
    rw [← hr]
    split_ifs <;> decide
  have hsub : (4 * b.mantissa - r) * quarterUnits b grid + r * quarterUnits b grid =
      4 * (b.mantissa * quarterUnits b grid) := by
    rw [← Nat.add_mul, Nat.sub_add_cancel (by omega), Nat.mul_assoc]
  have hhigh : (4 * b.mantissa + 2) * quarterUnits b grid =
      4 * (b.mantissa * quarterUnits b grid) + 2 * quarterUnits b grid := by
    rw [Nat.add_mul, Nat.mul_assoc]
  dsimp only
  rw [hr, hhigh]
  split_ifs <;> rw [Bool.and_eq_true, decide_eq_true_iff, decide_eq_true_iff] <;> omega

theorem onGrid?_some {n : Nat} (h : onGrid? b grid = some n) : inside b grid n = true := by
  unfold onGrid? at h
  dsimp only at h
  split at h
  · next hdown hup =>
    split_ifs at h <;> obtain rfl := Option.some.inj h
    · exact hdown
    · exact hup
    · exact hdown
    · exact hup
  · next hdown _ =>
    obtain rfl := Option.some.inj h
    exact hdown
  · next _ hup =>
    obtain rfl := Option.some.inj h
    exact hup
  · cases h

/-- A grid that is fine enough has a number that the double stands for. -/
theorem onGrid?_isSome (hb : b.mantissa ≠ 0) (hlt : b.mantissa < 2 ^ 53)
    (hnarrow : b.narrowBelow = true → b.mantissa = 2 ^ 52)
    (hfine : 10 ^ 16 * stepUnits b grid ≤ 4 * b.mantissa * quarterUnits b grid) :
    (onGrid? b grid).isSome = true := by
  have hsome {n : Nat} (hn : n = 4 * b.mantissa * quarterUnits b grid / stepUnits b grid ∨
      n = 4 * b.mantissa * quarterUnits b grid / stepUnits b grid + 1) (h : inside b grid n = true) :
      (onGrid? b grid).isSome = true := by
    unfold onGrid?
    dsimp only
    split
    · rfl
    · rfl
    · rfl
    · next hdown hup =>
      rcases hn with rfl | rfl
      · exact absurd h (Bool.eq_false_iff.mp hdown)
      · exact absurd h (Bool.eq_false_iff.mp hup)
  have hpos : 0 < quarterUnits b grid := quarterUnits_pos
  have hstep : 0 < stepUnits b grid := stepUnits_pos
  obtain ⟨q, hq⟩ : ∃ q, 4 * b.mantissa * quarterUnits b grid / stepUnits b grid = q := ⟨_, rfl⟩
  obtain ⟨r, hr⟩ : ∃ r, 4 * b.mantissa * quarterUnits b grid % stepUnits b grid = r := ⟨_, rfl⟩
  have hsplit := Nat.div_add_mod' (4 * b.mantissa * quarterUnits b grid) (stepUnits b grid)
  have hrest := Nat.mod_lt (4 * b.mantissa * quarterUnits b grid) hstep
  rw [hq] at hsome hsplit
  rw [hr] at hsplit hrest
  rw [Nat.mul_assoc] at hsplit hfine
  -- Half a step is less than what the double reaches.
  have hhalf {t : Nat} (ht : 2 * t ≤ stepUnits b grid) : t < b.reach * quarterUnits b grid := by
    unfold Binary.reach
    split_ifs with h
    · rw [hnarrow h] at hfine
      omega
    · have hle : b.mantissa * quarterUnits b grid ≤ 2 ^ 53 * quarterUnits b grid :=
        Nat.mul_le_mul_right _ hlt.le
      omega
  have hreach : b.reach * quarterUnits b grid ≤ 2 * quarterUnits b grid := by
    refine Nat.mul_le_mul_right _ ?_
    unfold Binary.reach
    split_ifs <;> decide
  by_cases hnear : 2 * r ≤ stepUnits b grid
  · have hdown := hhalf hnear
    refine hsome (.inl rfl) ((inside_iff hb q).mpr ((Binary.covers_iff hpos (steps_eq q)).mpr ?_))
    split_ifs <;> omega
  · have hup := hhalf (show 2 * (stepUnits b grid - r) ≤ stepUnits b grid by omega)
    have hnext : (q + 1) * stepUnits b grid = q * stepUnits b grid + stepUnits b grid := Nat.succ_mul ..
    refine hsome (.inr rfl)
      ((inside_iff hb (q + 1)).mpr ((Binary.covers_iff hpos (steps_eq (q + 1))).mpr ?_))
    split_ifs <;> omega

end Grid

/-- The number that a scientific form writes. -/
def value (d : Scientific) : ℚ := d.digits * 10 ^ d.exponent

/-- The search ends on a grid with a number that the double stands for, if the last one has such. -/
theorem search_covers {b : Binary} (hb : b.mantissa ≠ 0) {leading : ℤ} {tries count : Nat}
    (hlast : (onGrid? b (leading - (count + tries : Nat) + 1)).isSome = true) :
    b.Covers (value (search b leading (tries + 1) count)) := by
  induction tries generalizing count with
  | zero =>
    obtain ⟨n, hn⟩ := Option.isSome_iff_exists.mp hlast
    have hsearch : search b leading 1 count = ⟨n, leading - count + 1⟩ := by
      unfold search
      dsimp only
      rw [Nat.add_zero] at hn
      rw [hn]
    rw [hsearch]
    exact (inside_iff hb n).mp (onGrid?_some hn)
  | succ tries ih =>
    rw [search]
    cases hgrid : onGrid? b (leading - count + 1) with
    | some n => exact (inside_iff hb n).mp (onGrid?_some hgrid)
    | none =>
      refine ih ?_
      rwa [Nat.add_right_comm]

theorem value_stripZeros (fuel : Nat) (d : Scientific) : value (stripZeros fuel d) = value d := by
  induction fuel generalizing d with
  | zero => rfl
  | succ fuel ih =>
    unfold stripZeros
    split_ifs with h
    · rw [ih]
      unfold value
      have hdigits : (d.digits : ℚ) = (d.digits / 10 : Nat) * 10 := by
        exact_mod_cast (Nat.div_mul_cancel (Nat.dvd_of_mod_eq_zero h.2)).symm
      rw [hdigits, zpow_add₀ (by norm_num), zpow_one]
      ring
    · rfl

theorem num_div_den (b : Binary) : (b.num / b.den : ℚ) = b.mantissa * 2 ^ b.exponent := by
  unfold Binary.num Binary.den
  rw [zpow_eq_div two_ne_zero]
  push_cast
  rw [mul_div_assoc]

/-- With the leading digit and sixteen more, the grid is fine enough. -/
theorem seventeen_digits {b : Binary} {leading : ℤ}
    (hleading : (10 : ℚ) ^ leading ≤ b.mantissa * 2 ^ b.exponent) :
    10 ^ 16 * stepUnits b (leading - 16) ≤ 4 * b.mantissa * quarterUnits b (leading - 16) := by
  have hsteps := @steps_eq b (leading - 16) (10 ^ 16)
  have hplace : (0 : ℚ) < 2 ^ (b.exponent - 2) := zpow_pos (by norm_num) _
  have hquarters : (10 : ℚ) ^ leading / 2 ^ (b.exponent - 2) ≤ 4 * b.mantissa := by
    rw [div_le_iff₀ hplace]
    calc (10 : ℚ) ^ leading ≤ b.mantissa * 2 ^ b.exponent := hleading
      _ = 4 * b.mantissa * 2 ^ (b.exponent - 2) := by
        rw [zpow_sub₀ two_ne_zero]
        norm_num
        ring
  have hshift : ((10 ^ 16 : Nat) : ℚ) * 10 ^ (leading - 16) = 10 ^ leading := by
    rw [zpow_sub₀ (by norm_num)]
    norm_num
    ring
  rw [hshift] at hsteps
  have hcast : ((10 ^ 16 * stepUnits b (leading - 16) : Nat) : ℚ) ≤
      (4 * b.mantissa * quarterUnits b (leading - 16) : Nat) := by
    rw [← hsteps]
    push_cast
    gcongr
  exact_mod_cast hcast

/-- The shortest decimal of a double is one that it stands for. -/
theorem covers_shortest {x : Float} {b : Binary} (h : Binary.ofFloat x = some b)
    (hb : b.mantissa ≠ 0) : b.Covers (value b.shortest) := by
  have hcanonical := canonical_toModel x
  rw [unpack_of_ofFloat h hb] at hcanonical
  obtain ⟨hlt, hlow, hhigh, -⟩ := hcanonical
  have hlog : b.mantissa.log2 ≤ 52 := Float.Model.UnpackedFloat.log2_le_52 hlt
  have hnum : b.num ≠ 0 := Nat.mul_ne_zero hb (Nat.two_pow_pos _).ne'
  have hdigits : ((b.num.log2 : ℤ) - b.den.log2) = b.mantissa.log2 + b.exponent := by
    unfold Binary.num Binary.den
    rw [log2_mul_two_pow hb, Nat.log2_two_pow]
    omega
  have hleading := leadingExponent_le hnum b.den_pos (by omega) (by omega)
  rw [num_div_den] at hleading
  rw [Binary.shortest, value_stripZeros]
  refine search_covers hb (onGrid?_isSome hb hlt
    (fun hn => ((Binary.narrowBelow_ofBits h).mp hn).1) ?_)
  have hgrid : leadingExponent b.num b.den - (1 + 16 : Nat) + 1 =
      leadingExponent b.num b.den - 16 := by omega
  rw [hgrid]
  exact seventeen_digits hleading

end Inquiry.Decimal.Shortest
