import Inquiry.Json.Reader
import Inquiry.Proofs.Decimal.Digits
import Mathlib.Tactic.SplitIfs

/-!
# Numbers are read back

A number is read by its parts: a sign, whole digits without needless zeros, digits after a point and an
exponent. The parts end where the text after them cannot go on the number.
-/
namespace Inquiry.Json

open Decimal (digitsOf)
open Decimal.BaseTen (natOfDigits)

/-- Whether a text starts with no character of which `p` holds. -/
def StartsWithout (p : Char → Bool) (s : List Char) : Prop := ∀ c ∈ s.head?, p c = false

theorem startsWithout_nil (p : Char → Bool) : StartsWithout p [] := nofun

theorem startsWithout_cons {p : Char → Bool} {c : Char} (h : p c = false) (s : List Char) :
    StartsWithout p (c :: s) := by
  rintro x ⟨⟩
  exact h

/-- What a number goes on with. -/
def goesOn (c : Char) : Bool := c.isDigit || c = '.' || c = 'e' || c = 'E'

theorem StartsWithout.isDigit {s : List Char} (h : StartsWithout goesOn s) :
    StartsWithout Char.isDigit s := by
  intro c hc
  have hgoes := h c hc
  simp only [goesOn, Bool.or_eq_false_iff] at hgoes
  exact hgoes.1.1.1

theorem digits_append {ds t : List Char} (hds : ∀ d ∈ ds, d.isDigit = true)
    (ht : StartsWithout Char.isDigit t) : digits (ds ++ t) = ds := by
  unfold digits
  rw [List.takeWhile_append_of_pos hds]
  cases t with
  | nil => rw [List.takeWhile_nil, List.append_nil]
  | cons c t =>
    rw [List.takeWhile_cons_of_neg (by rw [ht c rfl]; decide), List.append_nil]

theorem readPart_none {t : List Char} (h : StartsWithout goesOn t) : readPart t = ([], t) := by
  unfold readPart
  split
  · exact absurd (h '.' rfl) (by decide)
  · rfl

theorem readPart_point {ds t : List Char} (hne : ds ≠ []) (hds : ∀ d ∈ ds, d.isDigit = true)
    (ht : StartsWithout Char.isDigit t) : readPart ('.' :: (ds ++ t)) = (ds, t) := by
  have hfull : ds.isEmpty = false := by simp [hne]
  simp only [readPart, digits_append hds ht, hfull, Bool.false_eq_true, if_false,
    List.drop_left]

theorem readExponent_none {t : List Char} (h : StartsWithout goesOn t) :
    readExponent t = (none, t) := by
  unfold readExponent
  cases t with
  | nil => rfl
  | cons c t =>
    have hc : ¬ (c = 'e' ∨ c = 'E') := by
      rintro (rfl | rfl)
      · exact absurd (h 'e' rfl) (by decide)
      · exact absurd (h 'E' rfl) (by decide)
    simp only [hc, if_false]

/-- An exponent with its sign. -/
theorem readExponent_signed (negative : Bool) {ds t : List Char} (hne : ds ≠ [])
    (hds : ∀ d ∈ ds, d.isDigit = true) (ht : StartsWithout Char.isDigit t) :
    readExponent ('e' :: (if negative then '-' else '+') :: (ds ++ t)) =
      (some (if negative then -(natOfDigits ds : Int) else natOfDigits ds), t) := by
  have hfull : ds.isEmpty = false := by simp [hne]
  cases negative <;>
    simp only [readExponent, digits_append hds ht, hfull, Bool.false_eq_true, if_true, if_false,
      true_or, List.drop_left]

/-- Digits that a number starts with: zero alone, or others without a zero in front. -/
def Whole (ds : List Char) : Prop :=
  ds = ['0'] ∨ ∃ d rest, ds = d :: rest ∧ d ≠ '0' ∧ ∀ c ∈ ds, c.isDigit = true

theorem Whole.ne_nil {ds : List Char} (h : Whole ds) : ds ≠ [] := by
  obtain rfl | ⟨d, rest, rfl, -, -⟩ := h
  · exact List.cons_ne_nil _ _
  · exact List.cons_ne_nil _ _

theorem Whole.isDigit {ds : List Char} (h : Whole ds) : ∀ d ∈ ds, d.isDigit = true := by
  obtain rfl | ⟨-, -, -, -, hds⟩ := h
  · exact List.forall_mem_singleton.mpr rfl
  · exact hds

theorem whole_of_head {ds : List Char} (hne : ds ≠ []) (hhead : ds.head? ≠ some '0')
    (hds : ∀ d ∈ ds, d.isDigit = true) : Whole ds := by
  obtain ⟨d, rest, rfl⟩ := List.exists_cons_of_ne_nil hne
  exact .inr ⟨d, rest, rfl, fun h => hhead (congrArg some h), hds⟩

/-- A sign in front of a text. -/
def signText (negative : Bool) : List Char := if negative then ['-'] else []

/-- A number is what its parts say. -/
theorem readNumber_parts {negative : Bool} {whole part rest mid tail : List Char}
    {exponent : Option Int} (hwhole : Whole whole) (hrest : StartsWithout Char.isDigit rest)
    (hpart : readPart rest = (part, mid)) (hexponent : readExponent mid = (exponent, tail))
    (hshort : part.isEmpty = true ∧ exponent.isNone = true → whole.length ≤ 4300) :
    readNumber (signText negative ++ (whole ++ rest)) =
      .ok (NumberParts.value ⟨negative, whole, part, exponent⟩, tail) := by
  have hlong : ¬ (part.isEmpty = true ∧ exponent.isNone = true ∧ 4300 < whole.length) :=
    fun ⟨h1, h2, h3⟩ => absurd (hshort ⟨h1, h2⟩) (by omega)
  obtain ⟨t, ht⟩ : ∃ t, whole ++ rest = t := ⟨_, rfl⟩
  have hdrop : t.drop whole.length = rest := by rw [← ht, List.drop_left]
  have hfull : whole.isEmpty = false := by simp [hwhole.ne_nil]
  have hsign (r : List Char) : t ≠ '-' :: r := by
    obtain ⟨d, ds, rfl⟩ := List.exists_cons_of_ne_nil hwhole.ne_nil
    rintro rfl
    obtain ⟨rfl, -⟩ := List.cons.inj ht
    exact absurd (hwhole.isDigit '-' List.mem_cons_self) (by decide)
  have hzero (r : List Char) (h : t = '0' :: r) : ['0'] = whole := by
    obtain rfl | ⟨d, ds, rfl, hd, -⟩ := hwhole
    · rfl
    · exact absurd (List.cons.inj (ht.trans h)).1 hd
  have hread (h : ∀ r, t ≠ '0' :: r) : digits t = whole := by
    obtain rfl | ⟨d, ds, rfl, -, hds⟩ := hwhole
    · exact absurd ht.symm (h rest)
    · rw [← ht, digits_append hds hrest]
  rw [ht]
  cases negative with
  | true =>
    simp only [readNumber, signText, if_true, List.cons_append, List.nil_append]
    split
    · next r =>
      simp only [hzero r rfl, hfull, Bool.false_eq_true, if_false, hdrop, hpart, hexponent, hlong]
    · next h =>
      simp only [hread h, hfull, Bool.false_eq_true, if_false, hdrop, hpart, hexponent, hlong]
  | false =>
    simp only [readNumber, signText, Bool.false_eq_true, if_false, List.nil_append]
    split
    · next r =>
      simp only [hzero r rfl, hfull, Bool.false_eq_true, if_false, hdrop, hpart, hexponent, hlong]
    · next h =>
      simp only [hread h, hfull, Bool.false_eq_true, if_false, hdrop, hpart, hexponent, hlong]

theorem whole_digitsOf (n : Nat) : Whole (digitsOf n) := by
  by_cases hn : n = 0
  · rw [hn]
    exact .inl rfl
  · exact whole_of_head (Decimal.digitsOf_ne_nil n) (Decimal.head_digitsOf hn)
      fun c hc => Decimal.isDigit_of_mem_digitsOf hc

/-- An integer is a sign and digits. -/
theorem toList_toString (n : Int) :
    (toString n).toList = signText (n < 0) ++ digitsOf n.natAbs := by
  rw [Int.toString_eq_repr, Int.repr_eq_if]
  split_ifs with h
  · rw [Nat.toList_repr, signText, decide_eq_false (by omega), ← Int.toNat_of_nonneg h]
    rfl
  · rw [String.toList_append, Nat.toList_repr, signText, decide_eq_true (by omega)]
    have habs : (-n).toNat = n.natAbs := by omega
    rw [habs]
    rfl

theorem signed_natAbs (n : Int) :
    (if decide (n < 0) = true then -(n.natAbs : Int) else n.natAbs) = n := by
  simp only [decide_eq_true_eq]
  split_ifs <;> omega

theorem readNumber_int {n : Int} {rest : List Char} (hn : (digitsOf n.natAbs).length ≤ 4300)
    (hrest : StartsWithout goesOn rest) :
    readNumber ((toString n).toList ++ rest) = .ok (.int n, rest) := by
  rw [toList_toString, List.append_assoc, readNumber_parts (whole_digitsOf _) hrest.isDigit
    (readPart_none hrest) (readExponent_none hrest) fun _ => hn]
  simp only [NumberParts.value, List.isEmpty_nil, Option.isNone_none, and_self, if_true,
    Decimal.natOfDigits_digitsOf, signed_natAbs]

/-- A number is no name. -/
theorem readName?_number {negative : Bool} {d : Char} {rest : List Char} (hd : d.isDigit = true) :
    readName? (signText negative ++ d :: rest) = none := by
  have hne : ∀ c ∈ ['n', 't', 'f', 'N', 'I', '-'], c ≠ d := by
    rintro c hc rfl
    have hletters : ∀ c ∈ ['n', 't', 'f', 'N', 'I', '-'], c.isDigit = false := by simp [Char.isDigit]
    rw [hletters c hc] at hd
    cases hd
  simp only [List.forall_mem_cons] at hne
  obtain ⟨hn, ht, hf, hN, hI, hminus, -⟩ := hne
  cases negative <;> simp [readName?, names, signText, hn, ht, hf, hN, hI, hminus]

section Plain

variable (room fuel : Nat) {c : Char} {rest : List Char} (hquote : c ≠ '"') (hbrace : c ≠ '\x7b')
  (hbracket : c ≠ '[')
include hquote hbrace hbracket

theorem readValue_name {r : Value × List Char} (h : readName? (c :: rest) = some r) :
    readValue room (fuel + 1) (c :: rest) = .ok r := by
  rw [readValue, h]
  · exact fun _ heq => hquote (List.cons.inj heq).1
  · exact fun _ heq => hbrace (List.cons.inj heq).1
  · exact fun _ heq => hbracket (List.cons.inj heq).1

theorem readValue_noName (h : readName? (c :: rest) = none) :
    readValue room (fuel + 1) (c :: rest) = readNumber (c :: rest) := by
  rw [readValue, h]
  · exact fun _ heq => hquote (List.cons.inj heq).1
  · exact fun _ heq => hbrace (List.cons.inj heq).1
  · exact fun _ heq => hbracket (List.cons.inj heq).1

end Plain

/-- A value that starts with a digit, or with a sign and a digit, is a number. -/
theorem readValue_number (room fuel : Nat) {negative : Bool} {d : Char} {rest : List Char}
    (hd : d.isDigit = true) :
    readValue room (fuel + 1) (signText negative ++ d :: rest) =
      readNumber (signText negative ++ d :: rest) := by
  have hname := @readName?_number negative d rest hd
  have hfirst : ∀ c ∈ ['"', '\x7b', '['], d ≠ c := by
    rintro c hc rfl
    have hmarks : ∀ c ∈ ['"', '\x7b', '['], c.isDigit = false := by simp [Char.isDigit]
    rw [hmarks d hc] at hd
    cases hd
  simp only [List.forall_mem_cons] at hfirst
  cases negative with
  | true => exact readValue_noName room fuel (by decide) (by decide) (by decide) hname
  | false => exact readValue_noName room fuel hfirst.1 hfirst.2.1 hfirst.2.2.1 hname

/-- An integer that is not too long is read back. -/
theorem readValue_int (room fuel : Nat) {n : Int} {rest : List Char}
    (hn : (digitsOf n.natAbs).length ≤ 4300) (hrest : StartsWithout goesOn rest) :
    readValue room (fuel + 1) ((toString n).toList ++ rest) = .ok (.int n, rest) := by
  obtain ⟨d, ds, hds⟩ := List.exists_cons_of_ne_nil (Decimal.digitsOf_ne_nil n.natAbs)
  have hd : d.isDigit = true := Decimal.isDigit_of_mem_digitsOf (hds ▸ List.mem_cons_self)
  have hnumber := readNumber_int hn hrest
  rw [toList_toString, List.append_assoc, hds, List.cons_append] at hnumber ⊢
  rw [readValue_number room fuel hd, hnumber]

/-- No value starts with a blank or the end of an array. -/
theorem readValue_misplaced (room fuel : Nat) {c : Char} (hc : c ∈ [' ', '\t', '\n', '\r', ']'])
    (rest : List Char) : readValue room (fuel + 1) (c :: rest) = .error ⟨.value, c :: rest⟩ := by
  simp only [List.mem_cons, List.not_mem_nil, or_false] at hc
  obtain rfl | rfl | rfl | rfl | rfl := hc <;>
    rw [readValue_noName room fuel (by decide) (by decide) (by decide) rfl] <;> rfl

theorem head_of_readValue {room fuel : Nat} {s : List Char} {r : Value × List Char}
    (h : readValue room (fuel + 1) s = .ok r) :
    ∃ c t, s = c :: t ∧ isSpace c = false ∧ c ≠ ']' := by
  cases s with
  | nil => cases h
  | cons c t =>
    have hc : c ∉ [' ', '\t', '\n', '\r', ']'] := by
      intro hc
      rw [readValue_misplaced room fuel hc t] at h
      cases h
    simp only [List.mem_cons, List.not_mem_nil, or_false, not_or] at hc
    obtain ⟨h1, h2, h3, h4, h5⟩ := hc
    exact ⟨c, t, rfl, by simp [isSpace, h1, h2, h3, h4], h5⟩

end Inquiry.Json
