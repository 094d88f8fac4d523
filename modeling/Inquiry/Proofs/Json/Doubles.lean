import Inquiry.Json.Printer
import Inquiry.Proofs.Decimal.Shortest
import Inquiry.Proofs.Json.Numbers

/-!
# Doubles are read back

However the digits of a double are laid out, with a point inside them or next to them or with an exponent,
the number that is read has their value. Of the shortest digits it is the double that was written.
-/
namespace Inquiry.Json

open Decimal (digitsOf FloatLayout Scientific zeroPadded)
open Decimal.BaseTen (natOfDigits finiteFloat)

/-- A number with a point or an exponent is a double. -/
theorem readNumber_float {negative : Bool} {whole part rest mid tail : List Char}
    {exponent : Option Int} (hwhole : Whole whole) (hrest : StartsWithout Char.isDigit rest)
    (hpart : readPart rest = (part, mid)) (hexponent : readExponent mid = (exponent, tail))
    (hfloat : ¬ (part.isEmpty = true ∧ exponent.isNone = true)) :
    readNumber (signText negative ++ (whole ++ rest)) =
      .ok (.float (finiteFloat negative (natOfDigits (whole ++ part))
        (exponent.getD 0 - part.length)), tail) := by
  rw [readNumber_parts hwhole hrest hpart hexponent fun h => absurd h hfloat, NumberParts.value,
    if_neg hfloat]

theorem natOfDigits_zeroPadded (width n : Nat) : natOfDigits (zeroPadded width n) = n := by
  unfold zeroPadded
  rw [Decimal.natOfDigits_append, Decimal.natOfDigits_zeros, Decimal.natOfDigits_digitsOf,
    Nat.zero_mul, Nat.zero_add]

theorem isDigit_zeros (n : Nat) : ∀ c ∈ List.replicate n '0', c.isDigit = true := by
  intro c hc
  rw [List.eq_of_mem_replicate hc]
  rfl

theorem isDigit_zeroPadded {width n : Nat} : ∀ c ∈ zeroPadded width n, c.isDigit = true := by
  intro c hc
  rcases List.mem_append.mp hc with h | h
  · exact isDigit_zeros _ c h
  · exact Decimal.isDigit_of_mem_digitsOf h

theorem zeroPadded_ne_nil (width n : Nat) : zeroPadded width n ≠ [] :=
  List.append_ne_nil_of_right_ne_nil _ (Decimal.digitsOf_ne_nil n)

/-- A text that is read as a decimal, with either sign and before whatever cannot go it on. -/
structure Spells (text : List Char) (c : Nat) (e : Int) : Prop where
  digit : ∃ d t, text = d :: t ∧ d.isDigit = true
  read (negative : Bool) (rest : List Char) : StartsWithout goesOn rest →
    readNumber (signText negative ++ (text ++ rest)) = .ok (.float (finiteFloat negative c e), rest)

theorem Whole.digit_append {ds : List Char} (h : Whole ds) (s : List Char) :
    ∃ d t, ds ++ s = d :: t ∧ d.isDigit = true := by
  obtain ⟨d, t, rfl⟩ := List.exists_cons_of_ne_nil h.ne_nil
  exact ⟨d, t ++ s, rfl, h.isDigit d List.mem_cons_self⟩

theorem spells_point {whole part : List Char} (hwhole : Whole whole) (hne : part ≠ [])
    (hpart : ∀ c ∈ part, c.isDigit = true) :
    Spells (whole ++ '.' :: part) (natOfDigits (whole ++ part)) (-part.length) where
  digit := hwhole.digit_append _
  read negative rest hrest := by
    rw [List.append_assoc, List.cons_append,
      readNumber_float hwhole (startsWithout_cons (by decide) _)
        (readPart_point hne hpart hrest.isDigit) (readExponent_none hrest) (by simp [hne])]
    simp

theorem readExponent_exponentText (l : FloatLayout) (n : Int) {rest : List Char}
    (hrest : StartsWithout Char.isDigit rest) :
    readExponent ('e' :: (l.exponentText n ++ rest)) = (some n, rest) := by
  have hread := readExponent_signed (decide (n < 0)) (zeroPadded_ne_nil l.exponentWidth n.natAbs)
    isDigit_zeroPadded hrest
  rw [natOfDigits_zeroPadded, signed_natAbs] at hread
  rw [← hread]
  simp only [FloatLayout.exponentText, decide_eq_true_eq]
  rfl

theorem spells_exponent (l : FloatLayout) {whole : List Char} (hwhole : Whole whole) (n : Int) :
    Spells (whole ++ 'e' :: l.exponentText n) (natOfDigits whole) n where
  digit := hwhole.digit_append _
  read negative rest hrest := by
    have hpart : readPart ('e' :: (l.exponentText n ++ rest)) =
        ([], 'e' :: (l.exponentText n ++ rest)) := rfl
    rw [List.append_assoc, List.cons_append,
      readNumber_float hwhole (startsWithout_cons (by decide) _) hpart
        (readExponent_exponentText l n hrest.isDigit) (by simp)]
    simp

theorem spells_point_exponent (l : FloatLayout) {whole part : List Char} (hwhole : Whole whole)
    (hne : part ≠ []) (hpart : ∀ c ∈ part, c.isDigit = true) (n : Int) :
    Spells (whole ++ '.' :: (part ++ 'e' :: l.exponentText n)) (natOfDigits (whole ++ part))
      (n - part.length) where
  digit := hwhole.digit_append _
  read negative rest hrest := by
    have hexponent := readExponent_exponentText l n hrest.isDigit
    rw [List.append_assoc, List.cons_append, List.append_assoc, List.cons_append,
      readNumber_float hwhole (startsWithout_cons (by decide) _)
        (readPart_point hne hpart (startsWithout_cons (by decide) _)) hexponent (by simp)]
    simp

section Laid

variable {ds : List Char} (hne : ds ≠ []) (hhead : ds.head? ≠ some '0')
  (hdigits : ∀ c ∈ ds, c.isDigit = true)

include hne hdigits in
theorem spells_small (n : Nat) :
    Spells ('0' :: '.' :: (List.replicate n '0' ++ ds)) (natOfDigits ds) (-(n + ds.length : Nat)) := by
  have hspells := @spells_point ['0'] (List.replicate n '0' ++ ds) (.inl rfl)
    (List.append_ne_nil_of_right_ne_nil _ hne)
    (List.forall_mem_append.mpr ⟨isDigit_zeros n, hdigits⟩)
  rwa [← List.append_assoc, ← List.replicate_one, List.replicate_append_replicate,
    Decimal.natOfDigits_append, Decimal.natOfDigits_zeros, Nat.zero_mul, Nat.zero_add,
    List.length_append, List.length_replicate] at hspells

include hne hhead hdigits in
theorem spells_large (n : Nat) :
    Spells (ds ++ List.replicate n '0' ++ ['.', '0']) (natOfDigits ds * 10 ^ n * 10) (-1) := by
  have hwhole : Whole (ds ++ List.replicate n '0') := by
    refine whole_of_head (List.append_ne_nil_of_left_ne_nil hne _) ?_
      (List.forall_mem_append.mpr ⟨hdigits, isDigit_zeros n⟩)
    rwa [List.head?_append_of_ne_nil _ hne]
  have hspells := @spells_point _ ['0'] hwhole (List.cons_ne_nil _ _) (isDigit_zeros 1)
  have hzero : natOfDigits ['0'] = 0 := rfl
  rwa [Decimal.natOfDigits_append, Decimal.natOfDigits_append, Decimal.natOfDigits_zeros, hzero,
    List.length_replicate, List.length_singleton, pow_one, Nat.add_zero, Nat.add_zero] at hspells

include hhead hdigits in
theorem spells_inside {n : Nat} (hn : n ≠ 0) (hlt : n < ds.length) :
    Spells (ds.take n ++ '.' :: ds.drop n) (natOfDigits ds) (-(ds.length - n : Nat)) := by
  have hback : ds.drop n ≠ [] := by
    rw [ne_eq, List.drop_eq_nil_iff]
    omega
  have hwhole : Whole (ds.take n) := by
    refine whole_of_head ?_ ?_ fun c hc => hdigits c (List.mem_of_mem_take hc)
    · rw [ne_eq, List.take_eq_nil_iff, ← List.length_eq_zero_iff]
      omega
    · rwa [List.head?_take, if_neg hn]
  have hspells := spells_point hwhole hback fun c hc => hdigits c (List.mem_of_mem_drop hc)
  rwa [List.take_append_drop, List.length_drop] at hspells

/-- One digit before the point; if it is the only one there is no point. -/
def leadingText : List Char → List Char
  | d :: e :: rest => d :: '.' :: e :: rest
  | short => short

include hne hhead hdigits in
theorem spells_leading (l : FloatLayout) (n : Int) :
    Spells (leadingText ds ++ 'e' :: l.exponentText n) (natOfDigits ds) (n + 1 - ds.length) := by
  cases ds with
  | nil => exact absurd rfl hne
  | cons x ys =>
    have hfirst : Whole [x] := whole_of_head (List.cons_ne_nil _ _) hhead
      fun c hc => hdigits c (List.mem_singleton.mp hc ▸ List.mem_cons_self)
    cases ys with
    | nil =>
      rw [List.length_singleton, Nat.cast_one, add_sub_cancel_right]
      exact spells_exponent l hfirst n
    | cons y rest =>
      have hspells := spells_point_exponent l hfirst (List.cons_ne_nil y rest)
        (fun c hc => hdigits c (List.mem_cons_of_mem x hc)) n
      rwa [List.singleton_append, show n - ((y :: rest).length : Nat) =
        n + 1 - ((x :: y :: rest).length : Nat) by simp only [List.length_cons]; omega] at hspells

end Laid

/-- What is laid out spells the value of the digits. -/
theorem spells_layDigits (l : FloatLayout) {d : Scientific} (hd : d.digits ≠ 0) :
    ∃ (c : Nat) (e : Int), (c * 10 ^ e : ℚ) = Decimal.Shortest.value d ∧ Spells (l.layDigits d) c e := by
  obtain ⟨ds, hds⟩ : ∃ ds, digitsOf d.digits = ds := ⟨_, rfl⟩
  have hne : ds ≠ [] := hds ▸ Decimal.digitsOf_ne_nil d.digits
  have hhead : ds.head? ≠ some '0' := hds ▸ Decimal.head_digitsOf hd
  have hdigits : ∀ c ∈ ds, c.isDigit = true := hds ▸ fun c hc => Decimal.isDigit_of_mem_digitsOf hc
  have hvalue : natOfDigits ds = d.digits := by rw [← hds, Decimal.natOfDigits_digitsOf]
  unfold FloatLayout.layDigits Decimal.Shortest.value
  dsimp only
  rw [hds, ← hvalue]
  split_ifs with hinside hfront hback
  · refine ⟨_, _, ?_, spells_small hne hdigits _⟩
    congr
    omega
  · obtain ⟨n, hn⟩ := Int.eq_ofNat_of_zero_le hback
    rw [hn, Int.toNat_natCast]
    refine ⟨_, _, ?_, spells_large hne hhead hdigits n⟩
    push_cast
    rw [zpow_neg_one, mul_inv_cancel_right₀ (by norm_num), zpow_natCast]
  · refine ⟨_, _, ?_, spells_inside hhead hdigits ?_ ?_⟩
    · congr
      omega
    · omega
    · omega
  · refine ⟨_, _, ?_, spells_leading hne hhead hdigits l _⟩
    congr
    omega

/-- A finite double is a sign and a text that spells it. -/
theorem spells_text (l : FloatLayout) {x : Float} {b : Decimal.Binary}
    (h : Decimal.Binary.ofFloat x = some b) :
    ∃ text c e, (l.text x).toList = signText b.negative ++ text ∧ Spells text c e ∧
      finiteFloat b.negative c e = x := by
  have htext : (l.text x).toList = signText b.negative ++
      (if b.isZero then ['0', '.', '0'] else l.layDigits b.shortest) := by
    unfold FloatLayout.text
    rw [h]
    exact String.toList_ofList
  rw [htext]
  by_cases hzero : b.mantissa = 0
  · have hisZero : b.isZero = true := beq_iff_eq.mpr hzero
    rw [hisZero, if_pos rfl]
    exact ⟨_, _, _, rfl, @spells_point ['0'] ['0'] (.inl rfl) (List.cons_ne_nil _ _) (by simp),
      Decimal.finiteFloat_of_zero h hzero _⟩
  · have hisZero : b.isZero = false := beq_eq_false_iff_ne.mpr hzero
    have hcovers := Decimal.Shortest.covers_shortest h hzero
    have hdigits : b.shortest.digits ≠ 0 := by
      intro hd
      refine Decimal.Binary.not_covers_zero hzero ?_
      rwa [Decimal.Shortest.value, hd, Nat.cast_zero, zero_mul] at hcovers
    obtain ⟨c, e, hvalue, hspells⟩ := spells_layDigits l hdigits
    rw [← hvalue] at hcovers
    rw [hisZero, if_neg Bool.false_ne_true]
    exact ⟨_, c, e, rfl, hspells, Decimal.finiteFloat_of_covers h hzero hcovers⟩

/-- The text of any double is read as the double. -/
theorem readValue_float (x : Float) (room fuel : Nat) {rest : List Char}
    (hrest : StartsWithout goesOn rest) :
    readValue room (fuel + 1) ((compactStyle.floats.text x).toList ++ rest) =
      .ok (.float x, rest) := by
  cases h : Decimal.Binary.ofFloat x with
  | some b =>
    obtain ⟨text, c, e, htext, hspells, hx⟩ := spells_text compactStyle.floats h
    have hread := hspells.read b.negative rest hrest
    obtain ⟨d, t, rfl, hd⟩ := hspells.digit
    rw [htext, List.append_assoc, List.cons_append, readValue_number room fuel hd, ← List.cons_append,
      hread, hx]
  | none =>
    have hx := Decimal.eq_of_ofFloat_none h
    unfold FloatLayout.text
    rw [h]
    dsimp only
    split_ifs at hx ⊢ with hnan hneg
    · rw [hx]
      exact readValue_name room fuel (by decide) (by decide) (by decide) rfl
    · rw [hx]
      exact readValue_name room fuel (by decide) (by decide) (by decide) rfl
    · rw [hx]
      exact readValue_name room fuel (by decide) (by decide) (by decide) rfl

/-- The characters of a number, or of a name for one. -/
def isNumberMark (c : Char) : Bool :=
  c.isDigit || ['.', 'e', '+', '-', 'N', 'a', 'I', 'n', 'f', 'i', 't', 'y'].contains c

theorem isNumberMark_of_isDigit {c : Char} (h : c.isDigit = true) : isNumberMark c = true := by
  rw [isNumberMark, h, Bool.true_or]

theorem isNumberMark_toString (n : Int) : ∀ c ∈ (toString n).toList, isNumberMark c = true := by
  rw [toList_toString, List.forall_mem_append]
  constructor
  · unfold signText
    split_ifs <;> simp [isNumberMark]
  · exact fun c hc => isNumberMark_of_isDigit (Decimal.isDigit_of_mem_digitsOf hc)

theorem isNumberMark_layDigits (l : FloatLayout) (d : Scientific) :
    ∀ c ∈ l.layDigits d, isNumberMark c = true := by
  have hdigits : ∀ c ∈ digitsOf d.digits, isNumberMark c = true :=
    fun c hc => isNumberMark_of_isDigit (Decimal.isDigit_of_mem_digitsOf hc)
  have hzeros (n : Nat) : ∀ c ∈ List.replicate n '0', isNumberMark c = true := by
    intro c hc
    rw [List.eq_of_mem_replicate hc]
    decide
  have hexponent (n : Int) : ∀ c ∈ l.exponentText n, isNumberMark c = true := by
    unfold FloatLayout.exponentText
    rw [List.forall_mem_cons]
    refine ⟨by split_ifs <;> decide, fun c hc => isNumberMark_of_isDigit (isDigit_zeroPadded c hc)⟩
  unfold FloatLayout.layDigits
  dsimp only
  generalize digitsOf d.digits = ds at hdigits
  split_ifs
  · simp only [List.forall_mem_cons, List.forall_mem_append]
    exact ⟨by decide, by decide, hzeros _, hdigits⟩
  · simp only [List.forall_mem_append]
    exact ⟨⟨hdigits, hzeros _⟩, by simp [isNumberMark]⟩
  · simp only [List.forall_mem_cons, List.forall_mem_append]
    exact ⟨fun c hc => hdigits c (List.mem_of_mem_take hc), by decide,
      fun c hc => hdigits c (List.mem_of_mem_drop hc)⟩
  · simp only [List.forall_mem_cons, List.forall_mem_append]
    refine ⟨?_, by decide, hexponent _⟩
    split
    · simp only [List.forall_mem_cons] at hdigits ⊢
      exact ⟨hdigits.1, by decide, hdigits.2⟩
    · exact hdigits

theorem isNumberMark_text (x : Float) :
    ∀ c ∈ (compactStyle.floats.text x).toList, isNumberMark c = true := by
  cases h : Decimal.Binary.ofFloat x with
  | some b =>
    unfold FloatLayout.text
    rw [h]
    dsimp only
    rw [String.toList_ofList, List.forall_mem_append]
    constructor
    · split_ifs <;> simp [isNumberMark]
    · split_ifs
      · simp [isNumberMark]
      · exact isNumberMark_layDigits _ _
  | none =>
    unfold FloatLayout.text
    rw [h]
    dsimp only
    split_ifs <;> simp [compactStyle, isNumberMark]

end Inquiry.Json
