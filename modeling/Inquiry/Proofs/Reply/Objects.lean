import Inquiry.Proofs.Json.Grammar
import Inquiry.Proofs.Reply.Balanced
import Inquiry.Reply.Extract

/-!
# The scan follows the grammar

The scan knows braces, quotes and backslashes only. It passes over the text of every value, so it closes
the first object of a text at the brace that the grammar closes it at.
-/
namespace Inquiry.Reply

open Json.Grammar

theorem quoted_of_body {t : List Char} (h : Body t) : Quoted t := by
  induction h with
  | nil => exact .nil
  | plain quote slash printable rest ih => exact (Quoted.char quote slash).append ih
  | @short c t listed rest ih => exact (Quoted.escape c).append ih
  | @numeric a b c d t digits rest ih =>
    have hdigit (x : Char) (hx : x ∈ [a, b, c, d]) : Quoted [x] := by
      have hhex := digits x hx
      refine .char ?_ ?_ <;>
        · rintro rfl
          exact absurd hhex (by decide)
    exact (Quoted.escape 'u').append ((hdigit a (by simp)).append ((hdigit b (by simp)).append
      ((hdigit c (by simp)).append ((hdigit d (by simp)).append ih))))

theorem passed_literal {t : List Char} (h : Literal t) : Passed t := by
  cases h with
  | mk body => exact (quoted_of_body body).passed

theorem passed_gap {t : List Char} (h : Gap t) : Passed t := by
  refine passed_of_forall fun c hc => ?_
  have hspace := h c hc
  refine ⟨?_, ?_, ?_⟩ <;>
    · rintro rfl
      exact absurd hspace (by decide)

theorem passed_digits {ds : List Char} (h : ∀ d ∈ ds, d.isDigit = true) : Passed ds :=
  passed_number fun d hd => Json.isNumberMark_of_isDigit (h d hd)

theorem passed_fraction {t : List Char} (h : Fraction t) : Passed t := by
  cases h with
  | none => exact .nil
  | some nonempty digits => exact .cons (by decide) (by decide) (by decide) (passed_digits digits)

theorem passed_exponent {t : List Char} (h : Exponent t) : Passed t := by
  cases h with
  | none => exact .nil
  | @some letter sign ds letters signs nonempty digits =>
    have hletter : ∀ c ∈ ['e', 'E'], c ≠ '"' ∧ c ≠ '\x7b' ∧ c ≠ '\x7d' := by simp
    have hsign : ∀ s ∈ [[], ['+'], ['-']], ∀ c ∈ s, Json.isNumberMark c = true := by
      simp [Json.isNumberMark]
    obtain ⟨hquote, hopen, hclose⟩ := hletter letter letters
    exact .cons hquote hopen hclose ((passed_number (hsign sign signs)).append
      (passed_digits digits))

theorem passed_numeral {t : List Char} (h : Numeral t) : Passed t := by
  cases h with
  | mk negative whole fraction scale =>
    have hsign : Passed (Json.signText negative) := by
      refine passed_number ?_
      cases negative <;> simp [Json.signText, Json.isNumberMark]
    exact hsign.append ((passed_digits whole.isDigit).append
      ((passed_fraction fraction).append (passed_exponent scale)))

/-- Brackets around text that is passed over. -/
theorem Passed.brackets {t : List Char} (h : Passed t) : Passed ('[' :: (t ++ [']'])) :=
  .cons (by decide) (by decide) (by decide)
    (h.append (.char (by decide) (by decide) (by decide)))

/-- Two texts with a comma or a colon between them. -/
theorem Passed.separated {c : Char} {s t : List Char} (hs : Passed s) (hc : c ∈ [',', ':'])
    (ht : Passed t) : Passed (s ++ c :: t) := by
  have hne : ∀ c ∈ [',', ':'], c ≠ '"' ∧ c ≠ '\x7b' ∧ c ≠ '\x7d' := by simp
  obtain ⟨hquote, hopen, hclose⟩ := hne c hc
  exact hs.append (.cons hquote hopen hclose ht)

mutual

theorem passed_value : ∀ {t}, IsValue t → Passed t
  | _, .null | _, .true | _, .false => passed_of_forall (by simp)
  | _, .number number => passed_numeral number
  | _, .string literal => passed_literal literal
  | _, .array items => (passed_items items).brackets
  | _, .emptyArray gap => (passed_gap gap).brackets
  | _, .object object => passed_object object

theorem passed_padded : ∀ {t}, Padded t → Passed t
  | _, .mk left value right => (passed_gap left).append ((passed_value value).append (passed_gap right))

theorem passed_items : ∀ {t}, Items t → Passed t
  | _, .one item => passed_padded item
  | _, .more item items => (passed_padded item).separated (by decide) (passed_items items)

theorem passed_member : ∀ {t}, Member t → Passed t
  | _, .mk left literal right value => (passed_gap left).append ((passed_literal literal).append
      ((passed_gap right).separated (by decide) (passed_padded value)))

theorem passed_members : ∀ {t}, Members t → Passed t
  | _, .one member => passed_member member
  | _, .more member members => (passed_member member).separated (by decide) (passed_members members)

theorem passed_object : ∀ {t}, IsObject t → Passed t
  | _, .members members => (passed_members members).braces
  | _, .empty gap => (passed_gap gap).braces

end

/-- Between the braces of an object stands text that is passed over. -/
theorem exists_passed_of_object {t : List Char} (h : IsObject t) :
    ∃ inner, Passed inner ∧ t = '\x7b' :: (inner ++ ['\x7d']) := by
  cases h with
  | members members => exact ⟨_, passed_members members, rfl⟩
  | empty gap => exact ⟨_, passed_gap gap, rfl⟩

/-- The first object of a text is found whole and nothing with it, however it is written and whatever
follows it. -/
theorem balanced_of_object {before text : String} (hbefore : '\x7b' ∉ before.toList)
    (h : IsObject text.toList) (after : String) :
    balanced (.str (before ++ text ++ after)) = .ok (some text) := by
  obtain ⟨inner, hinner, htext⟩ := exists_passed_of_object h
  rw [balanced, String.toList_append, String.toList_append, List.append_assoc, htext,
    findBalanced?_of_passed hinner hbefore, Option.map_some, ← htext, String.ofList_toList]

theorem isObject_quoted_braces :
    IsObject "\x7b \"q\\\"\x7d\": [\"\x7b\\u007d\", -1.5E+3] \x7d".toList := by
  have hkey : Literal ['"', 'q', '\\', '"', '\x7d', '"'] :=
    .mk (t := ['q', '\\', '"', '\x7d']) (.plain (by decide) (by decide) (by decide)
      (.short (by decide) (.plain (by decide) (by decide) (by decide) .nil)))
  have htext : Literal ['"', '\x7b', '\\', 'u', '0', '0', '7', 'd', '"'] :=
    .mk (t := ['\x7b', '\\', 'u', '0', '0', '7', 'd']) (.plain (by decide) (by decide) (by decide)
      (.numeric (by simp [isHexDigit]) .nil))
  have hnumber : Numeral ['-', '1', '.', '5', 'E', '+', '3'] :=
    .mk true (.inr ⟨'1', [], rfl, by decide, by simp⟩) (@Fraction.some ['5'] (by simp) (by simp))
      (@Exponent.some 'E' ['+'] ['3'] (by decide) (by decide) (by simp) (by simp))
  have hblank : Gap [' '] := List.forall_mem_singleton.mpr (by decide)
  have hnone : Gap [] := List.forall_mem_nil _
  have hitems : Items _ := .more (.mk hnone (.string htext) hnone)
    (.one (.mk hblank (.number hnumber) hnone))
  have hmember : Member _ := .mk hblank hkey hnone (.mk hblank (.array hitems) hblank)
  exact .members (.one hmember)

/-- Quotes and braces stand in the string literals of this object, one of them as an escape, and after
it a brace and a quote without another one. -/
theorem balanced_of_quoted_braces :
    balanced (.str ("The plan: " ++ "\x7b \"q\\\"\x7d\": [\"\x7b\\u007d\", -1.5E+3] \x7d" ++
      " \x7d or \" \x7b")) = .ok (some "\x7b \"q\\\"\x7d\": [\"\x7b\\u007d\", -1.5E+3] \x7d") :=
  balanced_of_object (by decide) isObject_quoted_braces _

end Inquiry.Reply
