import Inquiry.Proofs.Json.Grammar
import Inquiry.Proofs.Reply.Substitution

/-!
# Shell literals

A literal is found where it is written, with any blanks between its parentheses, and it ends at its own
parenthesis. The literals of other kinds stay as they are, and so do numbers, blanks and all strings
that stand for a text without the name of a literal.
-/
namespace Inquiry.Reply

open Json (StandsFor Whole signText)
open Json.Grammar (Gap Numeral)
open Text (isBlank)
open Text.Chars (dropBlank dropPrefix?)

/-- Whether no name of a literal stands in a text. -/
def Unmarked (s : List Char) : Prop := ∀ name ∈ LiteralKind.names, ¬ name.toList <:+: s

instance (s : List Char) : Decidable (Unmarked s) :=
  inferInstanceAs (Decidable (∀ name ∈ LiteralKind.names, ¬ name.toList <:+: s))

/-- A character that may stand in the argument of a literal. -/
structure Printable (c : Char) : Prop where
  low : 0x20 ≤ c.toNat
  high : c.toNat ≤ 0x7E
  quote : isQuote c = false
  slash : c ≠ '\\'

/-- What stands between the parentheses of a literal: the mark on both sides of the argument, and the
argument. -/
inductive Takes : LiteralKind → List Char → List Char → Prop
  | text {kind q s} (kinds : kind ∈ [LiteralKind.isoDate, .newDate, .objectId])
      (quote : isQuote q = true) (nonempty : s ≠ []) (printable : ∀ c ∈ s, Printable c)
      (unmarked : Unmarked s) : Takes kind [q] s
  | decimal {mark x} (marks : mark ∈ [[], ['"'], ['\'']]) (numeral : Numeral x) :
      Takes .decimal mark x
  | integer {kind mark ds} (kinds : kind ∈ [LiteralKind.long, .int])
      (marks : mark ∈ [[], ['"'], ['\'']]) (negative : Bool) (whole : Whole ds) :
      Takes kind mark (signText negative ++ ds)

/-- A call that stands for a value, with the blanks between its parentheses. -/
structure ShellLiteral where
  kind : LiteralKind
  before : List Char
  mark : List Char
  argument : List Char
  after : List Char
  blankBefore : ∀ c ∈ before, isBlank c = true
  blankAfter : ∀ c ∈ after, isBlank c = true
  takes : Takes kind mark argument

namespace ShellLiteral

/-- The argument with its marks. -/
def quoted (w : ShellLiteral) : List Char := w.mark ++ (w.argument ++ w.mark)

def written (w : ShellLiteral) : List Char :=
  w.kind.opening ++ (w.before ++ (w.quoted ++ (w.after ++ [')'])))

/-- A string for a text, and a number as it is. -/
def bare (w : ShellLiteral) : List Char :=
  match w.kind with
  | .isoDate | .newDate | .objectId => '"' :: (w.argument ++ ['"'])
  | .decimal | .long | .int => w.argument

end ShellLiteral

theorem dropBlank_gap {gap : List Char} (h : ∀ c ∈ gap, isBlank c = true) {c : Char}
    (hc : isBlank c = false) (rest : List Char) : dropBlank (gap ++ c :: rest) = c :: rest := by
  have hgap : dropBlank gap = [] := List.dropWhile_eq_nil_iff.mpr h
  rw [dropBlank_append_cons gap hc, hgap, List.nil_append]

theorem isBlank_of_isQuote {c : Char} (h : isQuote c = true) : isBlank c = false := by
  simp only [isQuote, Bool.or_eq_true, decide_eq_true_eq] at h
  rcases h with rfl | rfl <;> decide

theorem isNumberChar_of_isBlank {c : Char} (h : isBlank c = true) : isNumberChar c = false := by
  have hdigit : c.isDigit = false := by
    simp [isBlank, Char.isDigit, UInt32.le_iff_toNat_le] at h ⊢
    omega
  have hne : ∀ d ∈ ['-', '+', '.', 'e', 'E'], c ≠ d := by
    rintro d hd rfl
    have hmarks : ['-', '+', '.', 'e', 'E'].any isBlank = false := by decide
    exact List.any_eq_false.mp hmarks c hd h
  simp only [List.forall_mem_cons] at hne
  simp [isNumberChar, isIntegerChar, hdigit, hne]

theorem isNumberChar_of_isQuote {c : Char} (h : isQuote c = true) : isNumberChar c = false := by
  simp only [isQuote, Bool.or_eq_true, decide_eq_true_eq] at h
  rcases h with rfl | rfl <;> decide

section Match

variable {before after : List Char} (hbefore : ∀ c ∈ before, isBlank c = true)
  (hafter : ∀ c ∈ after, isBlank c = true)

include hafter in
theorem closing?_gap (rest : List Char) : closing? (after ++ ')' :: rest) = some rest := by
  rw [closing?, dropBlank_gap hafter (by decide)]
  rfl

include hafter in
theorem quotedBody?_argument {q : Char} (hq : isQuote q = true) {s : List Char} (hs : s ≠ [])
    (hprintable : ∀ c ∈ s, Printable c) (rest : List Char) :
    quotedBody? (s ++ q :: (after ++ ')' :: rest)) = some (s, rest) := by
  have hclosing : quoteClosing? (q :: (after ++ ')' :: rest)) = some rest := by
    rw [quoteClosing?, if_pos hq, closing?_gap hafter]
  induction s with
  | nil => exact absurd rfl hs
  | cons c s ih =>
    obtain ⟨hc, hrest⟩ := List.forall_mem_cons.mp hprintable
    have hline : c ≠ '\n' := by
      rintro rfl
      exact absurd hc.low (by decide)
    cases s with
    | nil =>
      rw [List.singleton_append, quotedBody?, if_neg hline, hclosing]
    | cons d s =>
      have hd := (hrest d List.mem_cons_self).quote
      have hnone : quoteClosing? (d :: s ++ q :: (after ++ ')' :: rest)) = none := by
        rw [List.cons_append, quoteClosing?, if_neg (by rw [hd]; decide)]
      rw [List.cons_append, quotedBody?, if_neg hline, hnone, ih (List.cons_ne_nil d s) hrest]
      rfl

include hbefore hafter in
theorem textLiteral_argument {opening? : List Char → Option (List Char)} {o : List Char}
    (hopen : ∀ s, opening? (o ++ s) = some s) {q : Char} (hq : isQuote q = true) {s : List Char}
    (hs : s ≠ []) (hprintable : ∀ c ∈ s, Printable c) (rest : List Char) :
    textLiteral opening? (o ++ (before ++ q :: (s ++ q :: (after ++ ')' :: rest)))) =
      some ('"' :: (s ++ ['"']), rest) := by
  have hblank : isBlank q = false := isBlank_of_isQuote hq
  rw [textLiteral, hopen, Option.map_some, dropBlank_gap hbefore hblank]
  dsimp only
  rw [if_pos hq, quotedBody?_argument hafter hq hs hprintable]
  rfl

theorem dropQuote_cons {c : Char} (hc : isQuote c = false) (s : List Char) :
    dropQuote (c :: s) = c :: s := by
  rw [dropQuote, if_neg (by rw [hc]; decide)]

theorem takeWhile_dropWhile {p : Char → Bool} {x : List Char} (hx : ∀ c ∈ x, p c = true) {d : Char}
    (hd : p d = false) (s : List Char) :
    (x ++ d :: s).takeWhile p = x ∧ (x ++ d :: s).dropWhile p = d :: s := by
  rw [List.takeWhile_append_of_pos hx, List.dropWhile_append_of_pos hx,
    List.takeWhile_cons_of_neg (by rw [hd]; decide), List.dropWhile_cons_of_neg (by rw [hd]; decide),
    List.append_nil]
  exact ⟨rfl, rfl⟩

include hafter in
/-- What stands after a number is no part of it. -/
theorem exists_end {mark : List Char} (hmark : mark ∈ [[], ['"'], ['\'']]) (rest : List Char) :
    ∃ d s, mark ++ (after ++ ')' :: rest) = d :: s ∧ isNumberChar d = false ∧
      dropQuote (d :: s) = after ++ ')' :: rest := by
  simp only [List.mem_cons, List.not_mem_nil, or_false] at hmark
  rcases hmark with rfl | rfl | rfl
  · cases after with
    | nil => exact ⟨')', rest, rfl, by decide, rfl⟩
    | cons d s =>
      have hd := hafter d List.mem_cons_self
      have hquote : isQuote d = false :=
        Bool.eq_false_iff.mpr fun hquote => absurd hd (by simp [isBlank_of_isQuote hquote])
      exact ⟨d, s ++ ')' :: rest, rfl, isNumberChar_of_isBlank hd, dropQuote_cons hquote _⟩
  · exact ⟨'"', _, rfl, by decide, rfl⟩
  · exact ⟨'\'', _, rfl, by decide, rfl⟩

include hbefore in
/-- Blanks and a quote are dropped in front of a number. -/
theorem dropQuote_number {mark : List Char} (hmark : mark ∈ [[], ['"'], ['\'']]) {c : Char}
    (hc : isNumberChar c = true) (s : List Char) :
    dropQuote (dropBlank (before ++ (mark ++ c :: s))) = c :: s := by
  simp only [List.mem_cons, List.not_mem_nil, or_false] at hmark
  rcases hmark with rfl | rfl | rfl
  · have hblank : isBlank c = false :=
      Bool.eq_false_iff.mpr fun hblank => absurd hc (by simp [isNumberChar_of_isBlank hblank])
    have hquote : isQuote c = false :=
      Bool.eq_false_iff.mpr fun hquote => absurd hc (by simp [isNumberChar_of_isQuote hquote])
    rw [List.nil_append, dropBlank_gap hbefore hblank, dropQuote_cons hquote]
  · rw [List.singleton_append, dropBlank_gap hbefore (by decide)]
    rfl
  · rw [List.singleton_append, dropBlank_gap hbefore (by decide)]
    rfl

include hbefore hafter in
theorem numberLiteral_argument (name : String) {allowed : Char → Bool}
    (hallowed : ∀ c, allowed c = true → isNumberChar c = true) {mark : List Char}
    (hmark : mark ∈ [[], ['"'], ['\'']]) {x : List Char} (hx : x ≠ [])
    (hnumber : ∀ c ∈ x, allowed c = true) (rest : List Char) :
    numberLiteral name allowed ((name ++ "(").toList ++
        (before ++ (mark ++ (x ++ (mark ++ (after ++ ')' :: rest)))))) = some (x, rest) := by
  obtain ⟨d, s, hend, hd, hdrop⟩ := exists_end hafter hmark rest
  have hstop : allowed d = false :=
    Bool.eq_false_iff.mpr fun hallow => absurd (hallowed d hallow) (by simp [hd])
  have hstart : dropQuote (dropBlank (before ++ (mark ++ (x ++ d :: s)))) = x ++ d :: s := by
    obtain ⟨c, t, rfl⟩ := List.exists_cons_of_ne_nil hx
    exact dropQuote_number hbefore hmark (hallowed c (hnumber c List.mem_cons_self)) _
  obtain ⟨htake, hrest⟩ := takeWhile_dropWhile hnumber hstop s
  have hopen : dropPrefix? (name ++ "(").toList
      ((name ++ "(").toList ++ (before ++ (mark ++ (x ++ d :: s)))) = some _ :=
    dropPrefix?_eq_some.mpr rfl
  rw [numberLiteral, hend, hopen]
  dsimp only
  rw [hstart, htake, hrest, hdrop, closing?_gap hafter, if_neg (by simp [hx])]
  rfl

end Match

theorem isIntegerChar_of_integer (negative : Bool) {ds : List Char} (h : Whole ds) :
    ∀ c ∈ signText negative ++ ds, isIntegerChar c = true := by
  have hsign : ∀ c ∈ signText negative, isIntegerChar c = true := by
    cases negative <;> simp [signText, isIntegerChar]
  refine List.forall_mem_append.mpr ⟨hsign, fun d hd => ?_⟩
  simp [isIntegerChar, h.isDigit d hd]

theorem isNumberChar_of_isIntegerChar {c : Char} (h : isIntegerChar c = true) :
    isNumberChar c = true := by
  simp [isNumberChar, h]

theorem isNumberChar_of_integer (negative : Bool) {ds : List Char} (h : Whole ds) :
    ∀ c ∈ signText negative ++ ds, isNumberChar c = true :=
  fun c hc => isNumberChar_of_isIntegerChar (isIntegerChar_of_integer negative h c hc)

theorem isNumberChar_of_isDigit {c : Char} (h : c.isDigit = true) : isNumberChar c = true :=
  isNumberChar_of_isIntegerChar (by simp [isIntegerChar, h])

theorem isNumberChar_of_numeral {x : List Char} (h : Numeral x) :
    ∀ c ∈ x, isNumberChar c = true := by
  cases h with
  | @mk ds part exponent negative whole fraction scale =>
    have hpart : ∀ c ∈ part, isNumberChar c = true := by
      cases fraction with
      | none => simp
      | some nonempty digits =>
        exact List.forall_mem_cons.mpr ⟨by decide, fun d hd => isNumberChar_of_isDigit (digits d hd)⟩
    have hscale : ∀ c ∈ exponent, isNumberChar c = true := by
      cases scale with
      | none => simp
      | @some letter sign ds letters signs nonempty digits =>
        have hletters : ∀ c ∈ ['e', 'E'], isNumberChar c = true := by simp [isNumberChar]
        have hsigns : ∀ s ∈ [[], ['+'], ['-']], ∀ c ∈ s, isNumberChar c = true := by
          simp [isNumberChar, isIntegerChar]
        refine List.forall_mem_cons.mpr ⟨hletters letter letters, ?_⟩
        exact List.forall_mem_append.mpr
          ⟨hsigns sign signs, fun d hd => isNumberChar_of_isDigit (digits d hd)⟩
    rw [← List.append_assoc]
    exact List.forall_mem_append.mpr
      ⟨isNumberChar_of_integer negative whole, List.forall_mem_append.mpr ⟨hpart, hscale⟩⟩

theorem numeral_ne_nil {x : List Char} (h : Numeral x) : x ≠ [] := by
  cases h with
  | mk negative whole fraction scale => simp [whole.ne_nil]

namespace ShellLiteral

/-- A literal is found where it is written, up to its own parenthesis. -/
theorem matcher_written (w : ShellLiteral) (rest : List Char) :
    w.kind.matcher (w.written ++ rest) = some (w.bare, rest) := by
  obtain ⟨kind, before, mark, argument, after, hbefore, hafter, htakes⟩ := w
  simp only [written, quoted, List.append_assoc]
  cases htakes with
  | text kinds quote nonempty printable unmarked =>
    simp only [List.mem_cons, List.not_mem_nil, or_false] at kinds
    have hopen {o : List Char} (s : List Char) : dropPrefix? o (o ++ s) = some s :=
      dropPrefix?_eq_some.mpr rfl
    rcases kinds with rfl | rfl | rfl
    · exact textLiteral_argument hbefore hafter hopen quote nonempty printable rest
    · exact textLiteral_argument hbefore hafter (fun s => rfl) quote nonempty printable rest
    · exact textLiteral_argument hbefore hafter hopen quote nonempty printable rest
  | decimal marks numeral =>
    exact numberLiteral_argument hbefore hafter "NumberDecimal" (fun _ h => h) marks
      (numeral_ne_nil numeral) (isNumberChar_of_numeral numeral) rest
  | @integer _ _ ds kinds marks negative whole =>
    have hne : signText negative ++ ds ≠ [] := List.append_ne_nil_of_right_ne_nil _ whole.ne_nil
    have hinteger := isIntegerChar_of_integer negative whole
    simp only [List.mem_cons, List.not_mem_nil, or_false] at kinds
    rcases kinds with rfl | rfl
    · exact numberLiteral_argument hbefore hafter "NumberLong"
        (fun _ => isNumberChar_of_isIntegerChar) marks hne hinteger rest
    · exact numberLiteral_argument hbefore hafter "NumberInt"
        (fun _ => isNumberChar_of_isIntegerChar) marks hne hinteger rest

theorem turns_bare (w : ShellLiteral) : Turns w.kind.matcher w.written w.bare := by
  refine .of_match (fun hnil => ?_) w.matcher_written
  exact absurd (List.append_eq_nil_iff.mp hnil).1 (by cases w.kind <;> decide)

end ShellLiteral

section Unchanged

variable {k : LiteralKind} {t : List Char}

/-- Characters of a class that has none of the first letters. -/
theorem turns_of_class {p : Char → Bool} (hp : ∀ c ∈ ['I', 'n', 'O', 'N'], p c = false)
    (h : ∀ c ∈ t, p c = true) : Turns k.matcher t t := by
  refine LiteralKind.turns_of_forall fun c hc => Bool.eq_false_iff.mpr fun hfirst => ?_
  have hmem : c ∈ ['I', 'n', 'O', 'N'] := by
    simpa [LiteralKind.isFirst, or_assoc] using hfirst
  exact absurd (h c hc) (by simp [hp c hmem])

theorem turns_blank (h : ∀ c ∈ t, isBlank c = true) : Turns k.matcher t t :=
  turns_of_class (by simp [isBlank]) h

theorem turns_number (h : ∀ c ∈ t, isNumberChar c = true) : Turns k.matcher t t :=
  turns_of_class (by simp [isNumberChar, isIntegerChar, Char.isDigit]) h

theorem turns_char {c : Char} (h : LiteralKind.isFirst c = false) : Turns k.matcher [c] [c] :=
  LiteralKind.turns_of_forall (List.forall_mem_singleton.mpr h)

theorem turns_gap (h : Gap t) : Turns k.matcher t t :=
  turns_of_class (by simp [Json.isSpace]) h

/-- No opening stands in a text that stands for one without names. -/
theorem not_infix_of_standsFor {s o : List Char} (hs : Unmarked s) (ht : StandsFor t s)
    (ho : k.Opens o) : ¬ o <:+: t := by
  intro hopening
  obtain ⟨c, p, hc, hslash, hpart, name, hname, hin⟩ := ho.exists_name
  exact hs name hname (hin.trans (ht.infix_self hc hslash (hpart.trans hopening)))

theorem not_infix_of_unmarked {o : List Char} (ht : Unmarked t) (ho : k.Opens o) : ¬ o <:+: t := by
  intro hopening
  obtain ⟨c, p, -, -, hpart, name, hname, hin⟩ := ho.exists_name
  exact ht name hname (hin.trans (hpart.trans hopening))

/-- A text with a quote at its end. -/
theorem turns_quoted (h : ∀ o, k.Opens o → ¬ o <:+: t) {q : Char} (hq : isQuote q = true) :
    Turns k.matcher (t ++ [q]) (t ++ [q]) := by
  have hstop : LiteralKind.isStop q = true := by simp [LiteralKind.isStop, hq]
  refine LiteralKind.turns_concat hstop fun o ho hwhole => ?_
  rcases List.infix_concat_iff.mp hwhole with hsuffix | hin
  · obtain ⟨p, hp, -⟩ := ho.exists_last
    rcases List.suffix_concat_iff.mp hsuffix with hnil | ⟨r, hr, -⟩
    · exact List.append_ne_nil_of_right_ne_nil p (by decide) (hp.symm.trans hnil)
    · have hlast : ['('] = [q] := (List.append_inj' (hp.symm.trans hr) rfl).2
      rw [← List.singleton_inj.mp hlast] at hq
      exact absurd hq (by decide)
  · exact h o ho hin

theorem turns_string (h : ∀ o, k.Opens o → ¬ o <:+: t) :
    Turns k.matcher ('"' :: (t ++ ['"'])) ('"' :: (t ++ ['"'])) :=
  (turns_char (by decide)).append (turns_quoted h (by decide))

theorem turns_null : Turns k.matcher ['n', 'u', 'l', 'l'] ['n', 'u', 'l', 'l'] := by
  refine .cons (fun rest => ?_) (LiteralKind.turns_of_forall (by simp [LiteralKind.isFirst]))
  cases k <;> rfl

theorem turns_bool (b : Bool) :
    Turns k.matcher (if b then "true".toList else "false".toList)
      (if b then "true".toList else "false".toList) := by
  cases b <;> exact LiteralKind.turns_of_forall (by simp [LiteralKind.isFirst])

end Unchanged

namespace ShellLiteral

variable {k : LiteralKind}

/-- An argument with the same mark on both sides, or with none. -/
theorem turns_marked {mark t : List Char} (hmark : mark ∈ [[], ['"'], ['\'']])
    (ht : Turns k.matcher t t) : Turns k.matcher (mark ++ (t ++ mark)) (mark ++ (t ++ mark)) := by
  have hself : Turns k.matcher mark mark := by
    simp only [List.mem_cons, List.not_mem_nil, or_false] at hmark
    rcases hmark with rfl | rfl | rfl
    · exact .nil
    · exact turns_char (by decide)
    · exact turns_char (by decide)
  exact hself.append (ht.append hself)

theorem turns_quoted_self (w : ShellLiteral) : Turns k.matcher w.quoted w.quoted := by
  obtain ⟨kind, before, mark, argument, after, -, -, htakes⟩ := w
  cases htakes with
  | @text _ q _ kinds quote nonempty printable unmarked =>
    have hq : LiteralKind.isFirst q = false := by
      simp only [isQuote, Bool.or_eq_true, decide_eq_true_eq] at quote
      rcases quote with rfl | rfl <;> decide
    exact (turns_char hq).append (turns_quoted (fun _ => not_infix_of_unmarked unmarked) quote)
  | decimal marks numeral =>
    exact turns_marked marks (turns_number (isNumberChar_of_numeral numeral))
  | integer kinds marks negative whole =>
    exact turns_marked marks (turns_number (isNumberChar_of_integer negative whole))

theorem turns_bare_self (w : ShellLiteral) : Turns k.matcher w.bare w.bare := by
  obtain ⟨kind, before, mark, argument, after, hbefore, hafter, htakes⟩ := w
  cases htakes with
  | text kinds quote nonempty printable unmarked =>
    have hstring := turns_string (k := k) fun _ => not_infix_of_unmarked unmarked
    simp only [List.mem_cons, List.not_mem_nil, or_false] at kinds
    rcases kinds with rfl | rfl | rfl <;> exact hstring
  | decimal marks numeral => exact turns_number (isNumberChar_of_numeral numeral)
  | @integer _ _ ds kinds marks negative whole =>
    have hinteger : Turns k.matcher (signText negative ++ ds) (signText negative ++ ds) :=
      turns_number (isNumberChar_of_integer negative whole)
    simp only [List.mem_cons, List.not_mem_nil, or_false] at kinds
    rcases kinds with rfl | rfl <;> exact hinteger

/-- A literal of another kind stays. -/
theorem turns_written_self (w : ShellLiteral) (hk : w.kind ≠ k) :
    Turns k.matcher w.written w.written := by
  have hopening : Turns k.matcher w.kind.opening w.kind.opening := by
    have hnone : ∀ o, k.Opens o → ¬ o <:+: w.kind.opening := fun _ ho => ho.not_infix_opening hk
    rw [w.kind.opening_eq_concat] at hnone ⊢
    exact LiteralKind.turns_concat (by decide) hnone
  exact hopening.append ((turns_blank w.blankBefore).append (w.turns_quoted_self.append
    ((turns_blank w.blankAfter).append (turns_char (by decide)))))

/-- The text of a literal when the kinds in `done` have been replaced. -/
def textAfter (done : List LiteralKind) (w : ShellLiteral) : List Char :=
  if w.kind ∈ done then w.bare else w.written

theorem turns_textAfter (done : List LiteralKind) (w : ShellLiteral) :
    Turns k.matcher (w.textAfter done) (w.textAfter (done ++ [k])) := by
  unfold textAfter
  by_cases hdone : w.kind ∈ done
  · rw [if_pos hdone, if_pos (List.mem_append_left _ hdone)]
    exact w.turns_bare_self
  · rw [if_neg hdone]
    by_cases hk : w.kind = k
    · rw [if_pos (by simp [hk]), ← hk]
      exact w.turns_bare
    · rw [if_neg (by simp [hdone, hk])]
      exact w.turns_written_self hk

end ShellLiteral

end Inquiry.Reply
