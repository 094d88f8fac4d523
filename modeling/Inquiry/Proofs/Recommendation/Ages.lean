import Inquiry.Proofs.Decimal.Integers
import Inquiry.Proofs.Recommendation.Retrieval

/-!
# Ages under a clock that shows numbers

A clock shows integers, or doubles with integers among them that doubles tell apart. On such times a
difference can always be told, and although a difference of doubles is rounded, it grows with the
clock: so the ages of entries grow, and the older of two entries is the first to be too old.
-/
namespace Inquiry

open Float.Model.UnpackedFloat

namespace Number

/-- A number that shows a time: no integer beyond those that doubles tell apart, and not what is no
number. -/
def IsReading : Number → Prop
  | int n => n.natAbs < 2 ^ 52
  | float x => x.isNaN = false

theorem isNumber_of_ofValue? {v : Value} {a : Number} (h : ofValue? v = some a) :
    v.isNumber = true ∧ v.isDecimal = false := by
  cases v <;> first | exact ⟨rfl, rfl⟩ | cases h

theorem ofValue?_toValue (a : Number) : ofValue? a.toValue = some a := by
  cases a <;> rfl

theorem rank?_int (n : Int) : (Value.int n).rank? = some (.of n) :=
  congrArg (fun q => some (Extended.of q)) (Decimal.Exact.ofInt_value n)

theorem rank?_of_ofValue? {v : Value} {a : Number} (h : ofValue? v = some a) :
    v.rank? = a.toValue.rank? := by
  cases v <;> first | exact Option.some.inj h ▸ rfl | cases h

/-- The double that is taken for a small integer is that integer. -/
theorem toFloat_int {n : Int} (h : n.natAbs < 2 ^ 53) :
    (int n).toFloat?.isSome = true ∧ (int n).toFloat.toModel.unpack.isFinite = true ∧
      (int n).toFloat.toModel.unpack.units = n * 2 ^ 1074 := by
  obtain ⟨x, hx, hfinite, hunits⟩ := Decimal.nearest?_of_lt h
  have htoFloat : (int n).toFloat = x := by
    change (Decimal.nearest? n 1).getD _ = x
    rw [hx]
    rfl
  refine ⟨?_, htoFloat ▸ hfinite, htoFloat ▸ hunits⟩
  change (Decimal.nearest? n 1).isSome = true
  rw [hx]
  rfl

/-- A reading lies where the double does that it is taken for. -/
theorem IsReading.toFloat {a : Number} (h : a.IsReading) :
    a.toFloat?.isSome = true ∧ ∃ p, a.toValue.rank? = some p ∧
      a.toFloat.toModel.unpack.place? = some p := by
  cases a with
  | float x =>
    have hne : x.toModel.unpack ≠ notANumber := by
      intro hnan
      have hx : x.isNaN = x.toModel.unpack.isNaN := rfl
      rw [hnan, h] at hx
      cases hx
    refine ⟨rfl, ?_⟩
    change ∃ p, (Value.float x).rank? = some p ∧ x.toModel.unpack.place? = some p
    rw [Value.rank?_float]
    generalize x.toModel.unpack = u at hne
    cases u with
    | notANumber => exact absurd rfl hne
    | _ => exact ⟨_, rfl, rfl⟩
  | int n =>
    obtain ⟨hsome, hfinite, hunits⟩ := toFloat_int (h.trans (by norm_num))
    refine ⟨hsome, .of n, rank?_int n, ?_⟩
    rw [place?_eq_ofUnits hfinite, hunits, ofUnits_mul]

/-- The difference of two readings lies where that of the doubles does. -/
theorem IsReading.sub {a b : Number} (ha : a.IsReading) (hb : b.IsReading) :
    (a - b).toValue.rank? = (Value.float (a.toFloat - b.toFloat)).rank? := by
  cases a with
  | float x => cases b <;> rfl
  | int m =>
    cases b with
    | float y => rfl
    | int n =>
      obtain ⟨-, hm, hmunits⟩ := toFloat_int (ha.trans (by norm_num))
      obtain ⟨-, hn, hnunits⟩ := toFloat_int (hb.trans (by norm_num))
      -- The difference of integers that are this small is a double too.
      have hsmall : (m - n).natAbs < 2 ^ 53 := by
        unfold IsReading at ha hb
        omega
      obtain ⟨-, -, hunits⟩ := toFloat_int hsmall
      have hrounded := rounded_units (unpack_canonical (int (m - n)).toFloat.toModel.toBits.toBitVec)
      change rounded (int (m - n)).toFloat.toModel.unpack.units =
        ofUnits (int (m - n)).toFloat.toModel.unpack.units at hrounded
      change (Value.int (m - n)).rank? = _
      rw [hunits, ofUnits_mul] at hrounded
      rw [rank?_int, Value.rank?_float, ← hrounded, sub_mul, ← hmunits, ← hnunits]
      exact (place?_sub (unpack_canonical _) (unpack_canonical _) hm hn).symm

/-- Two numbers that doubles are near to have a difference. -/
theorem subDefect?_eq_none {a b : Number} (ha : a.toFloat?.isSome = true)
    (hb : b.toFloat?.isSome = true) : a.subDefect? b = none := by
  have hsome : (a.toFloat?.isSome && b.toFloat?.isSome) = true := by
    rw [ha, hb]
    rfl
  cases a with
  | float x => exact if_pos hsome
  | int m =>
    cases b with
    | float y => exact if_pos hsome
    | int n => rfl

theorem IsReading.subDefect?_eq_none {a b : Number} (ha : a.IsReading) (hb : b.IsReading) :
    a.subDefect? b = none :=
  Number.subDefect?_eq_none ha.toFloat.1 hb.toFloat.1

end Number

namespace Recommendation

open Cache

theorem value_lt_iff {a b : Value} : a < b ↔ Value.less a b = .ok true := by
  change (Value.less a b).toOption = some true ↔ _
  cases Value.less a b <;> simp [Except.toOption]

theorem value_sub_eq {a b d : Value} (h : Value.difference a b = .ok d) : a - b = d := by
  change (Value.difference a b).toOption.getD .null = d
  rw [h]
  rfl

theorem difference_eq {t u : Value} {a b : Number} (ht : Number.ofValue? t = some a)
    (hu : Number.ofValue? u = some b) (h : a.subDefect? b = none) :
    Value.difference t u = .ok (a - b).toValue := by
  unfold Value.difference
  rw [(Number.isNumber_of_ofValue? ht).1, (Number.isNumber_of_ofValue? hu).1]
  change Value.numberDifference t u = _
  unfold Value.numberDifference
  rw [ht, hu]
  dsimp only
  rw [h]

/-- A time that is an integer. -/
def IsWhole (t : Value) : Prop := ∃ n, Number.ofValue? t = some (.int n)

/-- A time that is a double or an integer that doubles tell apart. -/
def IsReading (t : Value) : Prop := ∃ a, Number.ofValue? t = some a ∧ a.IsReading

/-- Numbers of which every two have a difference, and a place on the line. -/
structure Telling (Time : Value → Prop) : Prop where
  number : ∀ {t : Value}, Time t → ∃ a, Number.ofValue? t = some a
  placed : ∀ {t : Value}, Time t → ∃ p, t.rank? = some p
  difference : ∀ {t u : Value}, Time t → Time u →
    ∃ d a, Value.difference t u = .ok d ∧ Number.ofValue? d = some a

theorem telling_whole : Telling IsWhole where
  number := fun ⟨_, hn⟩ => ⟨_, hn⟩
  placed := fun ⟨n, hn⟩ => ⟨.of n, (Number.rank?_of_ofValue? hn).trans (Number.rank?_int n)⟩
  difference := fun ⟨_, hm⟩ ⟨_, hn⟩ => ⟨_, _, difference_eq hm hn rfl, Number.ofValue?_toValue _⟩

theorem telling_reading : Telling IsReading where
  number := fun ⟨a, ha, _⟩ => ⟨a, ha⟩
  placed := fun ⟨a, ha, hreading⟩ => by
    obtain ⟨p, hp, -⟩ := hreading.toFloat.2
    exact ⟨p, (Number.rank?_of_ofValue? ha).trans hp⟩
  difference := fun ⟨_, ha, ha'⟩ ⟨_, hb, hb'⟩ =>
    ⟨_, _, difference_eq ha hb (ha'.subDefect?_eq_none hb'), Number.ofValue?_toValue _⟩

section Order

variable {a b : Value} {x y : Number}

theorem lt_iff_rank (ha : Number.ofValue? a = some x) (hb : Number.ofValue? b = some y) :
    a < b ↔ ∃ p q, a.rank? = some p ∧ b.rank? = some q ∧ p < q :=
  value_lt_iff.trans (Value.less_eq_ok_true_iff (Number.isNumber_of_ofValue? ha).1
    (Number.isNumber_of_ofValue? hb).1)

theorem less_isOk (ha : Number.ofValue? a = some x) (hb : Number.ofValue? b = some y) :
    ∃ answer, Value.less a b = .ok answer :=
  Value.less_isOk (Number.isNumber_of_ofValue? ha).1 (Number.isNumber_of_ofValue? hb).1
    (Number.isNumber_of_ofValue? ha).2 (Number.isNumber_of_ofValue? hb).2

theorem not_lt_iff_le {p q : Extended} (ha : Number.ofValue? a = some x)
    (hb : Number.ofValue? b = some y) (hp : a.rank? = some p) (hq : b.rank? = some q) :
    ¬ a < b ↔ q ≤ p := by
  rw [lt_iff_rank ha hb, hp, hq, ← not_lt]
  simp

end Order

theorem Telling.le_of_not_lt {Time : Value → Prop} (h : Telling Time) {t u : Value}
    {p q : Extended} (ht : Time t) (hu : Time u) (hp : t.rank? = some p) (hq : u.rank? = some q)
    (hlt : ¬ u < t) : p ≤ q := by
  obtain ⟨a, ha⟩ := h.number ht
  obtain ⟨b, hb⟩ := h.number hu
  exact (not_lt_iff_le hb ha hq hp).mp hlt

/-- Ages on which a comparison with a limit depends grow with the clock. -/
theorem aging_of_mono {ttl : Value} {limit : Number} {Time : Value → Prop}
    (hlimit : Number.ofValue? ttl = some limit) (h : Telling Time)
    (hmono : ∀ {t₀ t₁ t now : Value} {r₀ r₁ r rnow d : Extended}, Time t₀ → Time t₁ → Time t →
      Time now → t₀.rank? = some r₀ → t₁.rank? = some r₁ → t.rank? = some r →
      now.rank? = some rnow → r₀ ≤ r₁ → r ≤ rnow → (t - t₁).rank? = some d → d ≠ ⊥ →
      ∃ d', (now - t₀).rank? = some d' ∧ d ≤ d') : Aging ttl Time where
  irrefl {t} ht hlt := by
    obtain ⟨a, ha⟩ := h.number ht
    obtain ⟨p, q, hp, hq, hpq⟩ := (lt_iff_rank ha ha).mp hlt
    rw [hp] at hq
    exact hpq.ne (Option.some.inj hq)
  expired {t₀ t₁ t now} ht₀ ht₁ ht hnow hle hle' hexpired := by
    obtain ⟨age, a, hage, ha⟩ := h.difference ht ht₁
    obtain ⟨age', a', hage', ha'⟩ := h.difference hnow ht₀
    obtain ⟨r₀, hr₀⟩ := h.placed ht₀
    obtain ⟨r₁, hr₁⟩ := h.placed ht₁
    obtain ⟨r, hr⟩ := h.placed ht
    obtain ⟨rnow, hrnow⟩ := h.placed hnow
    rw [value_sub_eq hage, lt_iff_rank hlimit ha] at hexpired
    obtain ⟨p, d, hp, hd, hpd⟩ := hexpired
    obtain ⟨d', hd', hdd'⟩ := hmono ht₀ ht₁ ht hnow hr₀ hr₁ hr hrnow
      (h.le_of_not_lt ht₀ ht₁ hr₀ hr₁ hle) (h.le_of_not_lt ht hnow hr hrnow hle')
      ((congrArg Value.rank? (value_sub_eq hage)).trans hd) (bot_le.trans_lt hpd).ne'
    rw [value_sub_eq hage'] at hd' ⊢
    exact (lt_iff_rank hlimit ha').mpr ⟨p, d', hp, hd', hpd.trans_le hdd'⟩

theorem aging_whole {ttl : Value} {limit : Number} (hlimit : Number.ofValue? ttl = some limit) :
    Aging ttl IsWhole := by
  refine aging_of_mono hlimit telling_whole ?_
  rintro t₀ t₁ t now r₀ r₁ r rnow d ⟨n₀, h₀⟩ ⟨n₁, h₁⟩ ⟨n, h⟩ ⟨m, hm⟩ hr₀ hr₁ hr hrnow hle hle' hd -
  rw [Number.rank?_of_ofValue? h₀] at hr₀
  rw [Number.rank?_of_ofValue? h₁] at hr₁
  rw [Number.rank?_of_ofValue? h] at hr
  rw [Number.rank?_of_ofValue? hm] at hrnow
  obtain rfl := Option.some.inj ((Number.rank?_int n₀).symm.trans hr₀)
  obtain rfl := Option.some.inj ((Number.rank?_int n₁).symm.trans hr₁)
  obtain rfl := Option.some.inj ((Number.rank?_int n).symm.trans hr)
  obtain rfl := Option.some.inj ((Number.rank?_int m).symm.trans hrnow)
  rw [value_sub_eq (difference_eq h h₁ rfl)] at hd
  obtain rfl := Option.some.inj ((Number.rank?_int (n - n₁)).symm.trans hd)
  rw [value_sub_eq (difference_eq hm h₀ rfl)]
  refine ⟨_, Number.rank?_int (m - n₀), ?_⟩
  rw [Extended.of_le_of] at hle hle' ⊢
  push_cast
  exact sub_le_sub hle' hle

theorem aging_reading {ttl : Value} {limit : Number} (hlimit : Number.ofValue? ttl = some limit) :
    Aging ttl IsReading := by
  refine aging_of_mono hlimit telling_reading ?_
  rintro t₀ t₁ t now r₀ r₁ r rnow d ⟨a₀, h₀, ha₀⟩ ⟨a₁, h₁, ha₁⟩ ⟨a, h, ha⟩ ⟨b, hb, hb'⟩
    hr₀ hr₁ hr hrnow hle hle' hd hne
  -- Each reading lies where its double does.
  have hplace {u : Value} {x : Number} {s : Extended} (hx : Number.ofValue? u = some x)
      (hx' : x.IsReading) (hs : u.rank? = some s) : (Value.float x.toFloat).rank? = some s := by
    obtain ⟨p, hp, hp'⟩ := hx'.toFloat.2
    rw [Number.rank?_of_ofValue? hx, hp] at hs
    rw [Value.rank?_float, hp', hs]
  rw [value_sub_eq (difference_eq h h₁ (ha.subDefect?_eq_none ha₁)), ha.sub ha₁] at hd
  rw [value_sub_eq (difference_eq hb h₀ (hb'.subDefect?_eq_none ha₀)), hb'.sub ha₀]
  exact Value.rank?_sub_mono (hplace h ha hr) (hplace h₁ ha₁ hr₁) (hplace hb hb' hrnow)
    (hplace h₀ ha₀ hr₀) hle' hle hd hne

end Recommendation

end Inquiry
