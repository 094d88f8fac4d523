import Inquiry.Proofs.Json.RoundTrip
import Inquiry.Reply.Balanced

/-!
# The first object of a text

Between braces the scan passes over whatever is balanced by itself, and over string literals whatever
they hold. So the text of an object is what is found, if no brace opens before it.
-/
namespace Inquiry.Reply

open Json (dump dumpItems dumpMoreItems dumpMembers entries Plain escapeChar stringBody)

/-- Text that the scan passes over inside an object. -/
def Passed (t : List Char) : Prop :=
  ∀ (depth : Nat) (rest : List Char), 0 < depth →
    scan .code depth (t ++ rest) = (scan .code depth rest).map (t ++ ·)

namespace Passed

theorem nil : Passed [] := by
  intro depth rest _
  simp

theorem append {s t : List Char} (hs : Passed s) (ht : Passed t) : Passed (s ++ t) := by
  intro depth rest hdepth
  rw [List.append_assoc, hs depth _ hdepth, ht depth rest hdepth, Option.map_map]
  congr 1
  funext u
  exact (List.append_assoc s t u).symm

theorem char {c : Char} (hquote : c ≠ '"') (hopen : c ≠ '\x7b') (hclose : c ≠ '\x7d') :
    Passed [c] := by
  intro depth rest _
  rw [List.singleton_append, scan, if_neg hquote, if_neg hopen, if_neg hclose]
  rfl

theorem cons {c : Char} {t : List Char} (hquote : c ≠ '"') (hopen : c ≠ '\x7b')
    (hclose : c ≠ '\x7d') (ht : Passed t) : Passed (c :: t) :=
  (char hquote hopen hclose).append ht

theorem braces {t : List Char} (ht : Passed t) : Passed ('\x7b' :: (t ++ ['\x7d'])) := by
  intro depth rest hdepth
  have hclose : scan .code (depth + 1) ('\x7d' :: rest) =
      (scan .code depth rest).map ('\x7d' :: ·) := by
    rw [scan, if_neg (by decide), if_neg (by decide), if_pos rfl, if_neg (by omega),
      Nat.add_sub_cancel]
  rw [List.cons_append, List.append_assoc, List.singleton_append, scan, if_neg (by decide), if_pos rfl,
    ht (depth + 1) _ (Nat.succ_pos depth), hclose, Option.map_map, Option.map_map]
  congr 1
  funext u
  simp

end Passed

/-- Text that the scan passes over inside a string literal. -/
def Quoted (t : List Char) : Prop :=
  ∀ (depth : Nat) (rest : List Char),
    scan .string depth (t ++ rest) = (scan .string depth rest).map (t ++ ·)

namespace Quoted

theorem nil : Quoted [] := by
  intro depth rest
  simp

theorem append {s t : List Char} (hs : Quoted s) (ht : Quoted t) : Quoted (s ++ t) := by
  intro depth rest
  rw [List.append_assoc, hs depth, ht depth, Option.map_map]
  congr 1
  funext u
  exact (List.append_assoc s t u).symm

theorem char {c : Char} (hquote : c ≠ '"') (hslash : c ≠ '\\') : Quoted [c] := by
  intro depth rest
  rw [List.singleton_append, scan]
  simp only [hquote, hslash, if_false]
  rfl

theorem escape (c : Char) : Quoted ['\\', c] := by
  intro depth rest
  rw [List.cons_append, List.singleton_append, scan]
  simp only [if_true]
  rw [scan, Option.map_map]
  rfl

theorem hexDigit {d : Nat} (h : d < 16) : Quoted [Text.hexDigit d] := by
  have hne : ∀ d < 16, Text.hexDigit d ≠ '"' ∧ Text.hexDigit d ≠ '\\' := by decide
  exact char (hne d h).1 (hne d h).2

theorem unitEscape (n : Nat) : Quoted (Json.unitEscape n) := by
  have hdigit (m : Nat) : Quoted [Text.hexDigit (m % 16)] := hexDigit (Nat.mod_lt m (by decide))
  rw [Json.unitEscape_eq]
  exact (escape 'u').append (((hdigit _).append (hdigit _)).append ((hdigit _).append (hdigit _)))

theorem escapeChar (ascii : Bool) (c : Char) : Quoted (Json.escapeChar ascii c) := by
  unfold Json.escapeChar
  cases hshort : Json.shortEscape? c with
  | some e => exact escape e
  | none =>
    dsimp only
    split_ifs with hescaped
    · unfold Json.numericEscape
      split_ifs
      · exact unitEscape _
      · exact (unitEscape _).append (unitEscape _)
    · refine char ?_ ?_
      · rintro rfl
        cases hshort
      · rintro rfl
        cases hshort

theorem stringBody (ascii : Bool) (s : List Char) : Quoted (Json.stringBody ascii s) := by
  induction s with
  | nil => exact nil
  | cons c s ih => exact (escapeChar ascii c).append ih

end Quoted

/-- A string literal is passed over. -/
theorem Quoted.passed {t : List Char} (h : Quoted t) : Passed ('"' :: (t ++ ['"'])) := by
  intro depth rest _
  have hclose : scan .string depth ('"' :: rest) = (scan .code depth rest).map ('"' :: ·) := by
    rw [scan]
    rfl
  rw [List.cons_append, List.append_assoc, List.singleton_append, scan, if_pos rfl, h depth, hclose,
    Option.map_map, Option.map_map]
  congr 1
  funext u
  simp

theorem passed_string (ascii : Bool) (s : String) : Passed (Json.string ascii s).toList := by
  rw [Json.string, String.toList_ofList]
  exact (Quoted.stringBody ascii s.toList).passed

/-- What is passed over between braces is found with them, whatever follows it, if no brace opens
before it. -/
theorem findBalanced?_of_passed {t before : List Char} (ht : Passed t) (hbefore : '\x7b' ∉ before)
    (after : List Char) :
    findBalanced? (before ++ ('\x7b' :: (t ++ ['\x7d']) ++ after)) =
      some ('\x7b' :: (t ++ ['\x7d'])) := by
  have hstart : (before ++ '\x7b' :: (t ++ '\x7d' :: after)).dropWhile (· ≠ '\x7b') =
      '\x7b' :: (t ++ '\x7d' :: after) := by
    rw [List.dropWhile_append_of_pos]
    · rfl
    · intro c hc
      rw [decide_eq_true_iff]
      rintro rfl
      exact hbefore hc
  rw [List.cons_append, List.append_assoc, List.singleton_append, findBalanced?, hstart]
  change scan .code 0 ('\x7b' :: (t ++ '\x7d' :: after)) = _
  rw [scan, if_neg (by decide), if_pos rfl, ht 1 _ Nat.one_pos, scan, if_neg (by decide),
    if_neg (by decide), if_pos rfl, if_pos le_rfl]
  rfl

/-- Text without quotes and braces. -/
theorem passed_of_forall {t : List Char} (h : ∀ c ∈ t, c ≠ '"' ∧ c ≠ '\x7b' ∧ c ≠ '\x7d') :
    Passed t := by
  induction t with
  | nil => exact Passed.nil
  | cons c t ih =>
    obtain ⟨hquote, hopen, hclose⟩ := h c List.mem_cons_self
    exact .cons hquote hopen hclose (ih fun d hd => h d (List.mem_cons_of_mem c hd))

theorem passed_number {t : List Char} (h : ∀ c ∈ t, Json.isNumberMark c = true) : Passed t := by
  refine passed_of_forall fun c hc => ?_
  have hmark := h c hc
  refine ⟨?_, ?_, ?_⟩ <;>
    · rintro rfl
      exact absurd hmark (by decide)

theorem passed_dumpMoreItems {xs : List Value} (h : ∀ x ∈ xs, Passed (dump x)) :
    Passed (dumpMoreItems xs) := by
  induction xs with
  | nil => exact .char (by decide) (by decide) (by decide)
  | cons x xs ih =>
    refine .cons (by decide) (by decide) (by decide) (.cons (by decide) (by decide) (by decide) ?_)
    exact (h x List.mem_cons_self).append (ih fun y hy => h y (List.mem_cons_of_mem x hy))

theorem passed_dumpItems {xs : List Value} (h : ∀ x ∈ xs, Passed (dump x)) : Passed (dumpItems xs) := by
  cases xs with
  | nil => exact .char (by decide) (by decide) (by decide)
  | cons x xs =>
    exact (h x List.mem_cons_self).append
      (passed_dumpMoreItems fun y hy => h y (List.mem_cons_of_mem x hy))

/-- The members of an object are passed over, and a brace closes them. -/
theorem passed_dumpMembers {fs : List (String × Value)} (h : ∀ f ∈ fs, Passed (dump f.2)) :
    ∃ t, Passed t ∧ dumpMembers (entries fs) = t ++ ['\x7d'] := by
  induction fs with
  | nil => exact ⟨[], .nil, rfl⟩
  | cons f fs ih =>
    have hf : Passed (dump (.str f.1) ++ ':' :: ' ' :: dump f.2) :=
      (passed_string true f.1).append (.cons (by decide) (by decide) (by decide)
        (.cons (by decide) (by decide) (by decide) (h f List.mem_cons_self)))
    cases fs with
    | nil => exact ⟨_, hf, by simp [Json.dumpMembers_one]⟩
    | cons g gs =>
      obtain ⟨t, ht, hmembers⟩ := ih fun e he => h e (List.mem_cons_of_mem f he)
      refine ⟨_, hf.append (.cons (c := ',') (by decide) (by decide) (by decide)
        (.cons (c := ' ') (by decide) (by decide) (by decide) ht)), ?_⟩
      rw [Json.dumpMembers_cons, hmembers]
      simp

/-- Between the braces of an object stands text that is passed over. -/
theorem exists_passed_dump_doc {fs : List (String × Value)} (h : ∀ f ∈ fs, Passed (dump f.2)) :
    ∃ t, Passed t ∧ dump (Value.doc fs) = '\x7b' :: (t ++ ['\x7d']) := by
  obtain ⟨t, ht, hmembers⟩ := passed_dumpMembers h
  refine ⟨t, ht, ?_⟩
  rw [← hmembers]
  rfl

theorem passed_dump {room : Nat} {v : Value} (h : Plain room v) : Passed (dump v) := by
  induction h with
  | null room => exact passed_of_forall (by simp [dump])
  | bool room b => exact passed_of_forall (by cases b <;> simp [dump])
  | int room n short => exact passed_number (Json.isNumberMark_toString n)
  | float room x => exact passed_number (Json.isNumberMark_text x)
  | str room s => exact passed_string true s
  | list room xs items ih => exact .cons (by decide) (by decide) (by decide) (passed_dumpItems ih)
  | doc room fields keys members ih =>
    obtain ⟨t, ht, hdump⟩ := exists_passed_dump_doc ih
    rw [hdump]
    exact ht.braces

theorem exists_passed_of_plain {room : Nat} {fields : List (String × Value)}
    (h : Plain room (Value.doc fields)) :
    ∃ t, Passed t ∧ dump (Value.doc fields) = '\x7b' :: (t ++ ['\x7d']) :=
  exists_passed_dump_doc fun _ hf => passed_dump (h.of_member hf)

/-- The text of an object is found, whatever follows it, if no brace opens before it. -/
theorem findBalanced?_dump {room : Nat} {fields : List (String × Value)}
    (h : Plain room (Value.doc fields)) {before : List Char} (hbefore : '\x7b' ∉ before)
    (after : List Char) :
    findBalanced? (before ++ (dump (Value.doc fields) ++ after)) = some (dump (Value.doc fields)) := by
  obtain ⟨t, ht, hdump⟩ := exists_passed_of_plain h
  rw [hdump]
  exact findBalanced?_of_passed ht hbefore after

end Inquiry.Reply
