import Inquiry.Json.Printer
import Inquiry.Json.Reader
import Mathlib.Tactic.SplitIfs

/-!
# Strings are read back

A string that is written with escapes for what is not printable ASCII is read back character by
character. A character beyond the sixteen-bit range is written as a pair of units and read as one.
-/
namespace Inquiry.Json

theorem hexValue?_hexDigit {d : Nat} (h : d < 16) : hexValue? (Text.hexDigit d) = some d := by
  have hall : ∀ d < 16, hexValue? (Text.hexDigit d) = some d := by decide
  exact hall d h

/-- The four digits of a unit. -/
theorem unitEscape_eq (n : Nat) : unitEscape n =
    ['\\', 'u', Text.hexDigit (n / 16 / 16 / 16 % 16), Text.hexDigit (n / 16 / 16 % 16),
      Text.hexDigit (n / 16 % 16), Text.hexDigit (n % 16)] := rfl

theorem hex4?_hexDigit {n : Nat} (h : n < 0x10000) :
    hex4? (Text.hexDigit (n / 16 / 16 / 16 % 16)) (Text.hexDigit (n / 16 / 16 % 16))
      (Text.hexDigit (n / 16 % 16)) (Text.hexDigit (n % 16)) = some n := by
  have hdigit (m : Nat) : hexValue? (Text.hexDigit (m % 16)) = some (m % 16) :=
    hexValue?_hexDigit (Nat.mod_lt m (by decide))
  unfold hex4?
  rw [hdigit, hdigit, hdigit, hdigit]
  simp only [Option.some.injEq]
  omega

/-- No character is half of a pair. -/
theorem toNat_unpaired (c : Char) : c.toNat < 0xD800 ∨ 0xDFFF < c.toNat :=
  c.valid.imp_right And.left

theorem isHighUnit_toNat (c : Char) : isHighUnit c.toNat = false := by
  have hunpaired := toNat_unpaired c
  unfold isHighUnit
  simp
  omega

theorem isLowUnit_toNat (c : Char) : isLowUnit c.toNat = false := by
  have hunpaired := toNat_unpaired c
  unfold isLowUnit
  simp
  omega

theorem unitChar_toNat (c : Char) : unitChar c.toNat = c := by
  rw [unitChar, isHighUnit_toNat, isLowUnit_toNat]
  exact Char.ofNat_toNat c

/-- A character beyond the sixteen-bit range is a pair of units. -/
theorem exists_pair {c : Char} (h : ¬ c.toNat < 0x10000) :
    ∃ m n, m < 0x10000 ∧ n < 0x10000 ∧ isHighUnit m = true ∧ isLowUnit n = true ∧
      pairChar m n = c ∧ numericEscape c.toNat = unitEscape m ++ unitEscape n := by
  have hlt : c.toNat < 0x110000 := by
    rcases c.valid with hc | ⟨-, hc⟩
    · exact Nat.lt_trans hc (by decide)
    · exact hc
  refine ⟨0xD800 + (c.toNat - 0x10000) / 0x400, 0xDC00 + (c.toNat - 0x10000) % 0x400,
    by omega, by omega, ?_, ?_, ?_, if_neg h⟩
  · unfold isHighUnit
    simp
    omega
  · unfold isLowUnit
    simp
    omega
  · unfold pairChar
    rw [show 0x10000 + (0xD800 + (c.toNat - 0x10000) / 0x400 - 0xD800) * 0x400 +
      (0xDC00 + (c.toNat - 0x10000) % 0x400 - 0xDC00) = c.toNat by omega, Char.ofNat_toNat]

section Read

variable (opening acc tail : List Char)

theorem readString_unit {n : Nat} (h : n < 0x10000) (hhigh : isHighUnit n = false) (x : Char) :
    readString opening acc (unitEscape n ++ x :: tail) =
      readString opening (unitChar n :: acc) (x :: tail) := by
  rw [unitEscape_eq]
  simp only [List.cons_append, List.nil_append]
  rw [readString, hex4?_hexDigit h]
  simp only [hhigh, Bool.false_eq_true, if_false]

theorem readString_pair {m n : Nat} (hm : m < 0x10000) (hn : n < 0x10000)
    (hhigh : isHighUnit m = true) (hlow : isLowUnit n = true) (x : Char) :
    readString opening acc (unitEscape m ++ (unitEscape n ++ x :: tail)) =
      readString opening (pairChar m n :: acc) (x :: tail) := by
  rw [unitEscape_eq, unitEscape_eq]
  simp only [List.cons_append, List.nil_append]
  rw [readString, hex4?_hexDigit hm]
  simp only [hhigh, if_true, hex4?_hexDigit hn, hlow]

theorem readString_simple {c r : Char} (h : simpleEscape? c = some r) :
    readString opening acc ('\\' :: c :: tail) = readString opening (r :: acc) tail := by
  have hu : c ≠ 'u' := by
    rintro rfl
    cases h
  rw [readString, h]
  · exact fun _ _ _ _ _ _ hc => absurd hc hu
  · exact hu

theorem readString_plain {c : Char} (hquote : c ≠ '"') (hslash : c ≠ '\\')
    (hprintable : ¬ c.toNat < 0x20) :
    readString opening acc (c :: tail) = readString opening (c :: acc) tail := by
  rw [readString, if_neg hprintable]
  · exact hquote
  · exact fun _ _ _ _ _ _ hc => absurd hc hslash
  · exact fun _ hc => absurd hc hslash
  · exact fun hc => absurd hc hslash
  · exact fun _ _ hc => absurd hc hslash

theorem readString_quote :
    readString opening acc ('"' :: tail) = .ok (String.ofList acc.reverse, tail) := by
  rw [readString]

end Read

theorem simpleEscape?_of_shortEscape? {c e : Char} (h : shortEscape? c = some e) :
    simpleEscape? e = some c := by
  have hcode {n : Nat} (hn : c.toNat = n) : c = Char.ofNat n := by
    rw [← hn, Char.ofNat_toNat]
  unfold shortEscape? at h
  split_ifs at h with h1 h2 h3 h4 h5 h6 h7 <;> obtain rfl := Option.some.inj h
  · rw [h1]
    rfl
  · rw [h2]
    rfl
  · rw [h3]
    rfl
  · rw [h4]
    rfl
  · rw [h5]
    rfl
  · rw [hcode h6]
    rfl
  · rw [hcode h7]
    rfl

/-- The four ways to write a character. -/
theorem escapeChar_cases (ascii : Bool) (c : Char) :
    (∃ e, simpleEscape? e = some c ∧ escapeChar ascii c = ['\\', e]) ∨
      (c.toNat < 0x10000 ∧ escapeChar ascii c = unitEscape c.toNat) ∨
      (∃ m n, m < 0x10000 ∧ n < 0x10000 ∧ isHighUnit m = true ∧ isLowUnit n = true ∧
        pairChar m n = c ∧ escapeChar ascii c = unitEscape m ++ unitEscape n) ∨
      (c ≠ '"' ∧ c ≠ '\\' ∧ ¬ c.toNat < 0x20 ∧ escapeChar ascii c = [c]) := by
  unfold escapeChar
  cases hshort : shortEscape? c with
  | some e => exact .inl ⟨e, simpleEscape?_of_shortEscape? hshort, rfl⟩
  | none =>
    dsimp only
    split_ifs with hescaped
    · by_cases hunit : c.toNat < 0x10000
      · exact .inr (.inl ⟨hunit, if_pos hunit⟩)
      · obtain ⟨m, n, hm, hn, hhigh, hlow, hchar, hpair⟩ := exists_pair hunit
        exact .inr (.inr (.inl ⟨m, n, hm, hn, hhigh, hlow, hchar, hpair⟩))
    · refine .inr (.inr (.inr ⟨?_, ?_, ?_, rfl⟩))
      · rintro rfl
        cases hshort
      · rintro rfl
        cases hshort
      · intro hlt
        simp [hlt] at hescaped

/-- A character is read back from what is written for it, if anything follows. -/
theorem readString_escapeChar (opening acc : List Char) (ascii : Bool) (c x : Char)
    (tail : List Char) :
    readString opening acc (escapeChar ascii c ++ x :: tail) =
      readString opening (c :: acc) (x :: tail) := by
  rcases escapeChar_cases ascii c with ⟨e, he, heq⟩ | ⟨hunit, heq⟩ |
    ⟨m, n, hm, hn, hhigh, hlow, hchar, heq⟩ | ⟨hquote, hslash, hprintable, heq⟩
  · rw [heq]
    exact readString_simple opening acc (x :: tail) he
  · rw [heq, readString_unit opening acc tail hunit (isHighUnit_toNat c), unitChar_toNat]
  · rw [heq, List.append_assoc, readString_pair opening acc tail hm hn hhigh hlow, hchar]
  · rw [heq]
    exact readString_plain opening acc (x :: tail) hquote hslash hprintable

/-- A string is read back up to its closing quote. -/
theorem readString_stringBody (opening acc : List Char) (ascii : Bool) (s tail : List Char) :
    readString opening acc (stringBody ascii s ++ '"' :: tail) =
      .ok (String.ofList (acc.reverse ++ s), tail) := by
  induction s generalizing acc with
  | nil =>
    rw [List.append_nil]
    exact readString_quote opening acc tail
  | cons c s ih =>
    have hcons : stringBody ascii (c :: s) = escapeChar ascii c ++ stringBody ascii s := rfl
    obtain ⟨x, rest, hx⟩ : ∃ x rest, stringBody ascii s ++ '"' :: tail = x :: rest := by
      cases stringBody ascii s with
      | nil => exact ⟨_, _, rfl⟩
      | cons x rest => exact ⟨_, _, rfl⟩
    rw [hcons, List.append_assoc, hx, readString_escapeChar, ← hx, ih, List.reverse_cons,
      List.append_assoc]
    rfl

end Inquiry.Json
