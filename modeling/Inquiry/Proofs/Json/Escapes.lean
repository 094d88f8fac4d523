import Inquiry.Proofs.Json.Strings
import Inquiry.Text.Blank
import Mathlib.Data.List.Infix

/-!
# What the text between two quotes stands for

A character of a string literal stands for itself or is one of its escapes. Escapes start with a
backslash and hold few other characters, so a part of the text that holds no backslash and does not
start in an escape stands for itself.
-/
namespace Inquiry.Json

open Text (isBlank)

/-- The text between two quotes and the characters it stands for. -/
inductive StandsFor : List Char → List Char → Prop
  | nil : StandsFor [] []
  | plain {c t s} (quote : c ≠ '"') (slash : c ≠ '\\') (printable : ¬ c.toNat < 0x20)
      (rest : StandsFor t s) : StandsFor (c :: t) (c :: s)
  | short {e c t s} (escape : simpleEscape? e = some c) (rest : StandsFor t s) :
      StandsFor (['\\', e] ++ t) (c :: s)
  | unit {a b c d n t s} (digits : hex4? a b c d = some n) (rest : StandsFor t s) :
      StandsFor (['\\', 'u', a, b, c, d] ++ t) (unitChar n :: s)
  | pair {a b c d e f g h m n t s} (highDigits : hex4? a b c d = some m)
      (high : isHighUnit m = true) (lowDigits : hex4? e f g h = some n) (low : isLowUnit n = true)
      (rest : StandsFor t s) :
      StandsFor (['\\', 'u', a, b, c, d, '\\', 'u', e, f, g, h] ++ t) (pairChar m n :: s)

/-- Whether an escape may hold a character. -/
def isEscapeMark (c : Char) : Bool :=
  c = '\\' || c = 'u' || (simpleEscape? c).isSome || (hexValue? c).isSome

/-- A numeric escape holds marks of escapes only. -/
theorem isEscapeMark_of_hex4? {a b c d : Char} {n : Nat} (h : hex4? a b c d = some n) :
    ∀ x ∈ ['\\', 'u', a, b, c, d], isEscapeMark x = true := by
  unfold hex4? at h
  split at h
  · rename_i ha hb hc hd
    simp [isEscapeMark, ha, hb, hc, hd]
  · cases h

theorem hexValue?_of_isBlank {c : Char} (h : isBlank c = true) : hexValue? c = none := by
  have hdigit : c.isDigit = false := by
    simp [isBlank, Char.isDigit, UInt32.le_iff_toNat_le] at h ⊢
    omega
  have hlower : ¬ ('a' ≤ c ∧ c ≤ 'f') := by
    simp [isBlank, Char.le_def, UInt32.le_iff_toNat_le] at h ⊢
    omega
  have hupper : ¬ ('A' ≤ c ∧ c ≤ 'F') := by
    simp [isBlank, Char.le_def, UInt32.le_iff_toNat_le] at h ⊢
    omega
  rw [hexValue?, hdigit, if_neg Bool.false_ne_true, if_neg hlower, if_neg hupper]

/-- No escape holds a blank. -/
theorem isEscapeMark_of_isBlank {c : Char} (h : isBlank c = true) : isEscapeMark c = false := by
  have hne : ∀ d ∈ ['u', '"', '\\', '/', 'b', 'f', 'n', 'r', 't'], c ≠ d := by
    rintro d hd rfl
    have hmarks : ['u', '"', '\\', '/', 'b', 'f', 'n', 'r', 't'].any isBlank = false := by decide
    exact List.any_eq_false.mp hmarks c hd h
  simp only [List.forall_mem_cons] at hne
  simp [isEscapeMark, simpleEscape?, hexValue?_of_isBlank h, hne]

theorem infix_of_infix_append {c : Char} {x p t : List Char} (hx : c ∉ x)
    (h : c :: p <:+: x ++ t) : c :: p <:+: t := by
  induction x with
  | nil => exact h
  | cons d x ih =>
    rcases List.infix_cons_iff.mp h with hstart | hrest
    · exact absurd (List.cons_prefix_cons.mp hstart).1 (List.ne_of_not_mem_cons hx)
    · exact ih (List.not_mem_of_not_mem_cons hx) hrest

theorem prefix_of_prefix_slash {p x s : List Char} (hslash : '\\' ∉ p) (hp : p <+: '\\' :: x) :
    p <+: s := by
  rcases List.prefix_cons_iff.mp hp with rfl | ⟨q, rfl, -⟩
  · exact List.nil_prefix
  · exact absurd List.mem_cons_self hslash

namespace StandsFor

variable {t s : List Char}

theorem prefix_self (h : StandsFor t s) {p : List Char} (hslash : '\\' ∉ p) (hp : p <+: t) :
    p <+: s := by
  induction h generalizing p with
  | nil => exact hp
  | plain quote slash printable rest ih =>
    rcases List.prefix_cons_iff.mp hp with rfl | ⟨q, rfl, hq⟩
    · exact List.nil_prefix
    · exact (List.prefix_cons_inj _).mpr (ih (List.not_mem_of_not_mem_cons hslash) hq)
  | short => exact prefix_of_prefix_slash hslash hp
  | unit => exact prefix_of_prefix_slash hslash hp
  | pair => exact prefix_of_prefix_slash hslash hp

/-- A part that starts in no escape and holds no backslash stands for itself. -/
theorem infix_self (h : StandsFor t s) {c : Char} {p : List Char} (hc : isEscapeMark c = false)
    (hslash : '\\' ∉ c :: p) (hp : c :: p <:+: t) : c :: p <:+: s := by
  have hmem {x : List Char} (hx : ∀ y ∈ x, isEscapeMark y = true) : c ∉ x := by
    intro hcx
    rw [hx c hcx] at hc
    cases hc
  induction h with
  | nil => exact hp
  | plain quote slash printable rest ih =>
    rcases List.infix_cons_iff.mp hp with hstart | hrest
    · exact (prefix_self (.plain quote slash printable rest) hslash hstart).isInfix
    · exact List.infix_cons (ih hrest)
  | short escape rest ih =>
    refine List.infix_cons (ih (infix_of_infix_append (hmem ?_) hp))
    simp [isEscapeMark, escape]
  | unit digits rest ih =>
    exact List.infix_cons (ih (infix_of_infix_append (hmem (isEscapeMark_of_hex4? digits)) hp))
  | pair highDigits high lowDigits low rest ih =>
    refine List.infix_cons (ih (infix_of_infix_append (hmem ?_) hp))
    exact List.forall_mem_append.mpr
      ⟨isEscapeMark_of_hex4? highDigits, isEscapeMark_of_hex4? lowDigits⟩

end StandsFor

end Inquiry.Json
