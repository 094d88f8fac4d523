import Inquiry.Proofs.Json.Escapes
import Inquiry.Proofs.Reply.Extract
import Inquiry.Reply.Literals

/-!
# How a text is rewritten piece by piece

One kind of shell literal is replaced from left to right. A piece of the text turns into another
whatever follows it, if the piece is a literal, or if no literal of the kind starts in it: because it has
none of the letters that the names start with, or because no opening stands in it and it ends in a
character that no opening goes on over. What a text turns into is then read off its pieces.
-/
namespace Inquiry.Reply

open Json (isEscapeMark isEscapeMark_of_isBlank)
open Text (isBlank)
open Text.Chars (dropBlank dropPrefix?)

/-- What a piece of text turns into, whatever follows it. -/
def Turns (m : Matcher) (t u : List Char) : Prop :=
  ∀ rest, substitute m 0 (t ++ rest) = u ++ substitute m 0 rest

namespace Turns

variable {m : Matcher}

theorem nil : Turns m [] [] := fun _ => rfl

theorem append {s t u v : List Char} (hs : Turns m s u) (ht : Turns m t v) :
    Turns m (s ++ t) (u ++ v) := by
  intro rest
  rw [List.append_assoc, hs, ht, List.append_assoc]

theorem substitute_eq {t u : List Char} (h : Turns m t u) : substitute m 0 t = u := by
  have hall := h []
  rwa [List.append_nil, substitute, List.append_nil] at hall

theorem cons {c : Char} {t u : List Char} (hc : ∀ rest, m (c :: (t ++ rest)) = none)
    (ht : Turns m t u) : Turns m (c :: t) (c :: u) := by
  intro rest
  rw [List.cons_append, substitute, hc, ht]
  rfl

theorem of_match {t u : List Char} (ht : t ≠ [])
    (h : ∀ rest, m (t ++ rest) = some (u, rest)) : Turns m t u := by
  have hskip (x y : List Char) : substitute m x.length (x ++ y) = substitute m 0 y := by
    induction x with
    | nil => rfl
    | cons d x ih => exact ih
  obtain ⟨c, t, rfl⟩ := List.exists_cons_of_ne_nil ht
  intro rest
  have hlength : (t ++ rest).length - rest.length = t.length := by
    rw [List.length_append, Nat.add_sub_cancel]
  have hmatch := h rest
  rw [List.cons_append] at hmatch ⊢
  rw [substitute, hmatch]
  dsimp only
  rw [hlength, hskip]

end Turns

inductive LiteralKind where
  | isoDate
  | newDate
  | objectId
  | decimal
  | long
  | int
  deriving DecidableEq

namespace LiteralKind

/-- The kinds in the order in which they are replaced. -/
def all : List LiteralKind := [isoDate, newDate, objectId, decimal, long, int]

theorem mem_all (k : LiteralKind) : k ∈ all := by
  cases k <;> decide

/-- The text up to the argument, as it is written. -/
def opening : LiteralKind → List Char
  | isoDate => "ISODate(".toList
  | newDate => "new Date(".toList
  | objectId => "ObjectId(".toList
  | decimal => "NumberDecimal(".toList
  | long => "NumberLong(".toList
  | int => "NumberInt(".toList

theorem opening_eq_concat (k : LiteralKind) : k.opening = k.opening.dropLast ++ ['('] := by
  cases k <;> rfl

def matcher : LiteralKind → Matcher
  | isoDate => textLiteral (dropPrefix? "ISODate(".toList)
  | newDate => textLiteral newDate?
  | objectId => textLiteral (dropPrefix? "ObjectId(".toList)
  | decimal => numberLiteral "NumberDecimal" isNumberChar
  | long => numberLiteral "NumberLong" isIntegerChar
  | int => numberLiteral "NumberInt" isIntegerChar

theorem literals_eq : literals = all.map matcher := rfl

/-- The texts that a literal of a kind may start with, up to its argument. -/
inductive Opens : LiteralKind → List Char → Prop
  | name {k} (fixed : k ≠ newDate) : Opens k k.opening
  | newDate {gap} (nonempty : gap ≠ []) (blank : ∀ c ∈ gap, isBlank c = true) :
      Opens newDate ("new".toList ++ (gap ++ "Date(".toList))

theorem opens_of_newDate? {s rest : List Char} (h : newDate? s = some rest) :
    ∃ o, Opens newDate o ∧ o ++ rest = s := by
  unfold newDate? at h
  split at h
  · rename_i c t ht
    split at h
    · rename_i hc
      have hname := dropPrefix?_eq_some.mp ht
      have hdate := dropPrefix?_eq_some.mp h
      refine ⟨_, .newDate (List.cons_ne_nil c (t.takeWhile isBlank)) ?_, ?_⟩
      · intro d hd
        rcases List.mem_cons.mp hd with rfl | hd
        · exact hc
        · exact List.mem_takeWhile_imp hd
      · rw [← hname, List.append_assoc, List.append_assoc, hdate, List.cons_append, dropBlank,
          List.takeWhile_append_dropWhile]
    · cases h
  · cases h

theorem opening?_of_textLiteral {opening? : List Char → Option (List Char)} {s : List Char}
    {r : List Char × List Char} (h : textLiteral opening? s = some r) :
    ∃ rest, opening? s = some rest := by
  unfold textLiteral at h
  cases hopen : opening? s with
  | none =>
    rw [hopen] at h
    cases h
  | some rest => exact ⟨rest, rfl⟩

theorem dropPrefix?_of_numberLiteral {name : String} {allowed : Char → Bool} {s : List Char}
    {r : List Char × List Char} (h : numberLiteral name allowed s = some r) :
    ∃ rest, (name ++ "(").toList ++ rest = s := by
  unfold numberLiteral at h
  split at h
  · cases h
  · rename_i rest hrest
    exact ⟨rest, dropPrefix?_eq_some.mp hrest⟩

/-- A literal starts with an opening. -/
theorem opens_of_matcher {k : LiteralKind} {s : List Char} {r : List Char × List Char}
    (h : k.matcher s = some r) : ∃ o rest, k.Opens o ∧ o ++ rest = s := by
  cases k with
  | isoDate | objectId =>
    obtain ⟨rest, hrest⟩ := opening?_of_textLiteral h
    exact ⟨_, rest, .name (by decide), dropPrefix?_eq_some.mp hrest⟩
  | newDate =>
    obtain ⟨rest, hrest⟩ := opening?_of_textLiteral h
    obtain ⟨o, ho, hs⟩ := opens_of_newDate? hrest
    exact ⟨o, rest, ho, hs⟩
  | decimal | long | int =>
    obtain ⟨rest, hrest⟩ := dropPrefix?_of_numberLiteral h
    exact ⟨_, rest, .name (by decide), hrest⟩

/-- Whether an opening may start with a character. -/
def isFirst (c : Char) : Bool := c = 'I' || c = 'n' || c = 'O' || c = 'N'

/-- The parenthesis that ends an opening, and the quotes that no opening holds. -/
def isStop (c : Char) : Bool := c = '(' || isQuote c

theorem not_isBlank_of_isStop {c : Char} (h : isStop c = true) : ¬ isBlank c = true := by
  simp only [isStop, isQuote, Bool.or_eq_true, decide_eq_true_eq] at h
  rcases h with rfl | rfl | rfl <;> decide

/-- The texts that nothing but a literal may hold. -/
def names : List String :=
  ["ISODate(", "Date(", "ObjectId(", "NumberDecimal(", "NumberLong(", "NumberInt("]

namespace Opens

variable {k : LiteralKind} {o : List Char}

theorem exists_first (h : k.Opens o) : ∃ c p, o = c :: p ∧ isFirst c = true := by
  cases h with
  | name fixed => cases k <;> exact ⟨_, _, rfl, by decide⟩
  | newDate nonempty blank => exact ⟨_, _, rfl, by decide⟩

/-- An opening ends in its only parenthesis. -/
theorem exists_last (h : k.Opens o) : ∃ p, o = p ++ ['('] ∧ ∀ c ∈ p, isStop c = false := by
  cases h with
  | name fixed =>
    have hall : ∀ k ∈ all, k.opening.dropLast.any isStop = false := by decide
    refine ⟨k.opening.dropLast, k.opening_eq_concat, fun c hc => ?_⟩
    exact Bool.eq_false_iff.mpr (List.any_eq_false.mp (hall k (mem_all k)) c hc)
  | @newDate gap nonempty blank =>
    refine ⟨"new".toList ++ (gap ++ "Date".toList), by simp, fun c hc => ?_⟩
    have hletters : ("new".toList ++ "Date".toList).any isStop = false := by decide
    refine Bool.eq_false_iff.mpr fun hstop => ?_
    by_cases hgap : c ∈ gap
    · exact absurd (blank c hgap) (not_isBlank_of_isStop hstop)
    · refine List.any_eq_false.mp hletters c ?_ hstop
      simpa only [List.mem_append, hgap, false_or] using hc

/-- No literal starts in the opening of another kind. -/
theorem not_infix_opening (h : k.Opens o) {l : LiteralKind} (hl : l ≠ k) :
    ¬ o <:+: l.opening := by
  cases h with
  | name fixed =>
    have hall : ∀ k ∈ all, k ≠ .newDate → ∀ l ∈ all, l ≠ k → ¬ k.opening <:+: l.opening := by
      decide +kernel
    exact hall k (mem_all k) fixed l (mem_all l) hl
  | @newDate gap nonempty blank =>
    intro hpart
    obtain ⟨c, hc⟩ := List.exists_mem_of_ne_nil gap nonempty
    have hmem : c ∈ l.opening := hpart.subset (by simp [hc])
    have hall : ∀ l ∈ all, l ≠ .newDate → l.opening.any isBlank = false := by decide +kernel
    exact List.any_eq_false.mp (hall l (mem_all l) hl) c hmem (blank c hc)

/-- An opening holds a name, from a character on that no escape holds. -/
theorem exists_name (h : k.Opens o) : ∃ c p, isEscapeMark c = false ∧ '\\' ∉ c :: p ∧
    c :: p <:+: o ∧ ∃ name ∈ names, name.toList <:+: c :: p := by
  cases h with
  | name fixed =>
    have hall : ∀ k ∈ all, k ≠ .newDate → k.opening.head?.any isEscapeMark = false ∧
        '\\' ∉ k.opening ∧ k.opening ∈ names.map String.toList := by decide +kernel
    obtain ⟨hhead, hslash, hmem⟩ := hall k (mem_all k) fixed
    obtain ⟨name, hname, heq⟩ := List.mem_map.mp hmem
    have hne : k.opening ≠ [] := by cases k <;> decide
    obtain ⟨c, p, hcp⟩ := List.exists_cons_of_ne_nil hne
    rw [hcp] at hhead hslash heq ⊢
    exact ⟨c, p, hhead, hslash, List.infix_rfl, name, hname, heq ▸ List.infix_rfl⟩
  | @newDate gap nonempty blank =>
    obtain ⟨front, c, rfl⟩ := (List.eq_nil_or_concat gap).resolve_left nonempty
    have hc : isEscapeMark c = false := isEscapeMark_of_isBlank (blank c (by simp))
    -- The last blank belongs to the part, since a numeric escape may end in the letter of the name.
    refine ⟨c, "Date(".toList, hc, ?_, ?_, "Date(", by decide, ?_⟩
    · refine List.not_mem_cons_of_ne_of_not_mem ?_ (by decide)
      rintro rfl
      cases hc
    · exact ⟨"new".toList ++ front, [], by simp⟩
    · exact (List.suffix_cons c _).isInfix

end Opens

section Unchanged

variable {k : LiteralKind} {t : List Char}

theorem matcher_eq_none {s : List Char} (h : ∀ o rest, k.Opens o → o ++ rest ≠ s) :
    k.matcher s = none := by
  refine Option.eq_none_iff_forall_ne_some.mpr fun r hr => ?_
  obtain ⟨o, rest, ho, hs⟩ := opens_of_matcher hr
  exact h o rest ho hs

/-- Nothing changes where no character is the first of an opening. -/
theorem turns_of_forall (h : ∀ c ∈ t, isFirst c = false) : Turns k.matcher t t := by
  induction t with
  | nil => exact .nil
  | cons c t ih =>
    obtain ⟨hc, ht⟩ := List.forall_mem_cons.mp h
    refine .cons (fun rest => matcher_eq_none fun o after ho heq => ?_) (ih ht)
    obtain ⟨d, p, rfl, hd⟩ := ho.exists_first
    rw [(List.cons.inj heq).1, hc] at hd
    cases hd

/-- An opening that starts in a text does not go on over a stop at its end. -/
theorem infix_of_append_eq {c : Char} (hc : isStop c = true) {o after rest : List Char}
    (ho : k.Opens o) (h : o ++ after = t ++ c :: rest) : o <:+: t ++ [c] := by
  rw [List.append_cons] at h
  rcases List.append_eq_append_iff.mp h with ⟨more, hmore, -⟩ | ⟨more, hmore, -⟩
  · exact hmore ▸ (List.prefix_append o more).isInfix
  · obtain ⟨p, hp, hstop⟩ := ho.exists_last
    rcases List.eq_nil_or_concat more with rfl | ⟨front, d, rfl⟩
    · rw [hmore, List.append_nil]
    · have hmem : c ∈ p := by
        have heq : t ++ [c] ++ front ++ [d] = p ++ ['('] := by
          rw [← hp, hmore, List.append_assoc, List.concat_eq_append]
        rw [← (List.append_inj' heq rfl).1]
        simp
      rw [hstop c hmem] at hc
      cases hc

/-- Nothing changes in a text without an opening that ends in a stop. -/
theorem turns_concat {c : Char} (hc : isStop c = true)
    (h : ∀ o, k.Opens o → ¬ o <:+: t ++ [c]) : Turns k.matcher (t ++ [c]) (t ++ [c]) := by
  induction t with
  | nil =>
    refine .cons (fun rest => matcher_eq_none fun o after ho heq => ?_) .nil
    exact h o ho (infix_of_append_eq hc ho heq)
  | cons d t ih =>
    refine .cons (fun rest => matcher_eq_none fun o after ho heq => ?_) (ih fun o ho hpart => ?_)
    · have hrest : o ++ after = d :: t ++ c :: rest :=
        heq.trans (congrArg (d :: ·) (List.append_assoc t [c] rest))
      exact h o ho (infix_of_append_eq hc ho hrest)
    · exact h o ho (List.infix_cons hpart)

end Unchanged

end LiteralKind

end Inquiry.Reply
