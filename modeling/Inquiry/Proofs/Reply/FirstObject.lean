import Inquiry.Reply.Extract
import Mathlib.Data.List.Infix
import Mathlib.Order.Basic

/-!
# Which object of a text is found

At every opening brace an object may start: the text up to the brace that leaves no brace open, where
string literals count as they are read from that start. The search looks at the first opening brace of
the text and at no other one. So what it finds is the first object of the text, and it finds it just
when the object stands at the first brace. A text that breaks off with a brace still open has nothing to
find, also where a part of it is closed.
-/
namespace Inquiry.Reply

/-- Where a reader stands after one more character, and how many braces are open. -/
def readChar : Mode × Nat → Char → Mode × Nat
  | (.escaped, depth), _ => (.string, depth)
  | (.string, depth), c =>
    (if c = '\\' then .escaped else if c = '"' then .code else .string, depth)
  | (.code, depth), c =>
    if c = '"' then (.string, depth)
    else if c = '\x7b' then (.code, depth + 1)
    else if c = '\x7d' then (.code, depth - 1)
    else (.code, depth)

/-- The braces that a text leaves open. -/
def openBraces (start : Mode × Nat) (t : List Char) : Nat := (t.foldl readChar start).2

/-- A text that starts with a brace and ends where no brace is open for the first time. -/
structure IsBalanced (t : List Char) : Prop where
  opens : t.head? = some '\x7b'
  closes : openBraces (.code, 0) t = 0
  first : ∀ p, p <+: t → p ≠ [] → p ≠ t → openBraces (.code, 0) p ≠ 0

def ObjectAt (text : List Char) (i : Nat) (t : List Char) : Prop :=
  IsBalanced t ∧ t <+: text.drop i

/-- The object at the least position that has one. -/
def FirstObject (text : List Char) (i : Nat) (t : List Char) : Prop :=
  ObjectAt text i t ∧ ∀ j u, j < i → ¬ ObjectAt text j u

def FirstBrace (text : List Char) (i : Nat) : Prop :=
  text[i]? = some '\x7b' ∧ ∀ j < i, text[j]? ≠ some '\x7b'

/-- A text that ends where no brace is open for the first time, when some are open at its start. -/
structure Closes (start : Mode × Nat) (t : List Char) : Prop where
  closes : openBraces start t = 0
  first : ∀ p, p <+: t → p ≠ t → openBraces start p ≠ 0

theorem scan_cons {mode : Mode} {depth : Nat} (h : 0 < depth) (c : Char) (s : List Char) :
    scan mode depth (c :: s) =
      if (readChar (mode, depth) c).2 = 0 then some [c]
      else (scan (readChar (mode, depth) c).1 (readChar (mode, depth) c).2 s).map (c :: ·) := by
  have hdepth : depth ≠ 0 := Nat.pos_iff_ne_zero.mp h
  cases mode with
  | escaped => rw [readChar, if_neg hdepth, scan]
  | string => rw [readChar, if_neg hdepth, scan]
  | code =>
    rw [readChar, scan]
    by_cases hquote : c = '"'
    · rw [if_pos hquote, if_pos hquote, if_neg hdepth]
    · rw [if_neg hquote, if_neg hquote]
      by_cases hopen : c = '\x7b'
      · rw [if_pos hopen, if_pos hopen, if_neg (Nat.succ_ne_zero depth)]
      · rw [if_neg hopen, if_neg hopen]
        by_cases hclose : c = '\x7d'
        · rw [if_pos hclose, if_pos hclose]
          by_cases hlast : depth ≤ 1
          · rw [if_pos hlast, if_pos (Nat.sub_eq_zero_of_le hlast)]
          · rw [if_neg hlast, if_neg (Nat.sub_ne_zero_of_lt (Nat.lt_of_not_le hlast))]
        · rw [if_neg hclose, if_neg hclose, if_neg hdepth]

theorem Closes.ne_nil {mode : Mode} {depth : Nat} (h : 0 < depth) {t : List Char}
    (ht : Closes (mode, depth) t) : t ≠ [] := by
  rintro rfl
  exact absurd ht.closes (Nat.pos_iff_ne_zero.mp h)

theorem closes_cons_iff {mode : Mode} {depth : Nat} (h : 0 < depth) (c : Char) (t : List Char) :
    Closes (mode, depth) (c :: t) ↔
      if (readChar (mode, depth) c).2 = 0 then t = []
      else Closes (readChar (mode, depth) c) t := by
  constructor
  · intro ht
    split
    · rename_i hzero
      by_contra hne
      exact ht.first [c] (List.prefix_append [c] t) (by simpa [eq_comm] using hne) hzero
    · refine ⟨ht.closes, fun p hp hne => ?_⟩
      exact ht.first (c :: p) ((List.prefix_cons_inj c).mpr hp) (by simpa using hne)
  · intro ht
    have hnil : openBraces (mode, depth) [] ≠ 0 := Nat.pos_iff_ne_zero.mp h
    split at ht
    · rename_i hzero
      subst ht
      refine ⟨hzero, fun p hp hne => ?_⟩
      rcases List.prefix_cons_iff.mp hp with rfl | ⟨q, rfl, hq⟩
      · exact hnil
      · rw [List.prefix_nil.mp hq] at hne
        exact absurd rfl hne
    · refine ⟨ht.closes, fun p hp hne => ?_⟩
      rcases List.prefix_cons_iff.mp hp with rfl | ⟨q, rfl, hq⟩
      · exact hnil
      · exact ht.first q hq fun heq => hne (congrArg (c :: ·) heq)

theorem scan_eq_some_iff {mode : Mode} {depth : Nat} (h : 0 < depth) {s t : List Char} :
    scan mode depth s = some t ↔ t <+: s ∧ Closes (mode, depth) t := by
  induction s generalizing mode depth t with
  | nil =>
    refine iff_of_false (by simp [scan]) ?_
    rintro ⟨ht, hcloses⟩
    exact hcloses.ne_nil h (List.prefix_nil.mp ht)
  | cons c s ih =>
    cases t with
    | nil =>
      refine iff_of_false ?_ fun ht => ht.2.ne_nil h rfl
      rw [scan_cons h]
      split <;> simp
    | cons d t =>
      rw [List.cons_prefix_cons, scan_cons h]
      constructor
      · intro hscan
        split at hscan
        · rename_i hzero
          cases hscan
          refine ⟨⟨rfl, List.nil_prefix⟩, (closes_cons_iff h _ _).mpr ?_⟩
          rw [if_pos hzero]
        · rename_i hne
          obtain ⟨u, hu, htu⟩ := Option.map_eq_some_iff.mp hscan
          cases htu
          obtain ⟨hstart, hcloses⟩ := (ih (Nat.pos_iff_ne_zero.mpr hne)).mp hu
          refine ⟨⟨rfl, hstart⟩, (closes_cons_iff h _ _).mpr ?_⟩
          rwa [if_neg hne]
      · rintro ⟨⟨hd, hstart⟩, hcloses⟩
        obtain rfl := hd.symm
        have hcons := (closes_cons_iff h _ _).mp hcloses
        split at hcons
        · rename_i hzero
          rw [if_pos hzero, hcons]
        · rename_i hne
          have hrest : scan (readChar (mode, depth) c).1 (readChar (mode, depth) c).2 s = some t :=
            (ih (Nat.pos_iff_ne_zero.mpr hne)).mpr ⟨hstart, hcons⟩
          rw [if_neg hne, hrest]
          rfl

theorem isBalanced_cons_iff (t : List Char) :
    IsBalanced ('\x7b' :: t) ↔ Closes (.code, 1) t := by
  constructor
  · intro h
    refine ⟨h.closes, fun p hp hne => ?_⟩
    exact h.first ('\x7b' :: p) ((List.prefix_cons_inj _).mpr hp) (by simp) (by simpa using hne)
  · intro h
    refine ⟨rfl, h.closes, fun p hp hnil hne => ?_⟩
    rcases List.prefix_cons_iff.mp hp with rfl | ⟨q, rfl, hq⟩
    · exact absurd rfl hnil
    · exact h.first q hq fun heq => hne (congrArg ('\x7b' :: ·) heq)

theorem scan_brace_eq_some_iff {s t : List Char} :
    scan .code 0 ('\x7b' :: s) = some t ↔ IsBalanced t ∧ t <+: '\x7b' :: s := by
  have hscan : scan .code 0 ('\x7b' :: s) = (scan .code 1 s).map ('\x7b' :: ·) := rfl
  rw [hscan, Option.map_eq_some_iff]
  constructor
  · rintro ⟨u, hu, rfl⟩
    obtain ⟨hstart, hcloses⟩ := (scan_eq_some_iff Nat.one_pos).mp hu
    exact ⟨(isBalanced_cons_iff u).mpr hcloses, (List.prefix_cons_inj _).mpr hstart⟩
  · rintro ⟨hbalanced, hstart⟩
    rcases List.prefix_cons_iff.mp hstart with rfl | ⟨u, rfl, hu⟩
    · cases hbalanced.opens
    · exact ⟨u, (scan_eq_some_iff Nat.one_pos).mpr ⟨hu, (isBalanced_cons_iff u).mp hbalanced⟩, rfl⟩

theorem ObjectAt.brace {text t : List Char} {i : Nat} (h : ObjectAt text i t) :
    text[i]? = some '\x7b' := by
  obtain ⟨rest, hrest⟩ := h.2
  have hhead := h.1.opens
  cases t with
  | nil => cases hhead
  | cons c t =>
    cases hhead
    rw [← List.head?_drop, ← hrest]
    rfl

/-- The object at a position, by the scan. -/
def object? (text : List Char) (i : Nat) : Option (List Char) :=
  match text.drop i with
  | '\x7b' :: s => scan .code 0 ('\x7b' :: s)
  | _ => none

theorem object?_eq_some_iff {text t : List Char} {i : Nat} :
    object? text i = some t ↔ ObjectAt text i t := by
  constructor
  · intro h
    rw [object?] at h
    split at h
    · rename_i s hs
      obtain ⟨hbalanced, hstart⟩ := scan_brace_eq_some_iff.mp h
      exact ⟨hbalanced, hs ▸ hstart⟩
    · cases h
  · intro h
    have hbrace := h.brace
    rw [← List.head?_drop, List.head?_eq_some_iff] at hbrace
    obtain ⟨s, hs⟩ := hbrace
    rw [object?, hs]
    exact scan_brace_eq_some_iff.mpr (hs ▸ h)

/-- What is found is the object at the first brace. -/
theorem findBalanced?_eq_some_iff {text t : List Char} :
    findBalanced? text = some t ↔ ∃ i, FirstBrace text i ∧ ObjectAt text i t := by
  induction text with
  | nil =>
    refine iff_of_false (by simp [findBalanced?]) ?_
    rintro ⟨i, ⟨hbrace, -⟩, -⟩
    cases hbrace
  | cons c s ih =>
    by_cases hc : c = '\x7b'
    · subst hc
      have hfind : findBalanced? ('\x7b' :: s) = scan .code 0 ('\x7b' :: s) := rfl
      rw [hfind, scan_brace_eq_some_iff]
      constructor
      · exact fun h => ⟨0, ⟨rfl, fun j hj => absurd hj (Nat.not_lt_zero j)⟩, h⟩
      · rintro ⟨i, ⟨-, hbefore⟩, hobject⟩
        cases i with
        | zero => exact hobject
        | succ i => exact absurd rfl (hbefore 0 (Nat.succ_pos i))
    · have hfind : findBalanced? (c :: s) = findBalanced? s := by
        rw [findBalanced?, findBalanced?, List.dropWhile_cons_of_pos (by simpa using hc)]
      rw [hfind, ih]
      constructor
      · rintro ⟨i, ⟨hbrace, hbefore⟩, hobject⟩
        refine ⟨i + 1, ⟨hbrace, fun j hj => ?_⟩, hobject⟩
        cases j with
        | zero => simpa using hc
        | succ j => exact hbefore j (Nat.lt_of_succ_lt_succ hj)
      · rintro ⟨i, ⟨hbrace, hbefore⟩, hobject⟩
        cases i with
        | zero => exact absurd (Option.some.inj hbrace) hc
        | succ i =>
          exact ⟨i, ⟨hbrace, fun j hj => hbefore (j + 1) (Nat.succ_lt_succ hj)⟩, hobject⟩

theorem findBalanced?_eq_none_iff {text : List Char} :
    findBalanced? text = none ↔ ∀ i t, FirstBrace text i → ¬ ObjectAt text i t := by
  rw [Option.eq_none_iff_forall_ne_some]
  constructor
  · exact fun hnone i t hbrace hobject =>
      hnone t (findBalanced?_eq_some_iff.mpr ⟨i, hbrace, hobject⟩)
  · intro hnone t hfound
    obtain ⟨i, hbrace, hobject⟩ := findBalanced?_eq_some_iff.mp hfound
    exact hnone i t hbrace hobject

/-- The object at the first brace is the first object. -/
theorem firstObject_of_firstBrace {text t : List Char} {i : Nat} (hbrace : FirstBrace text i)
    (hobject : ObjectAt text i t) : FirstObject text i t :=
  ⟨hobject, fun j _ hj hu => hbrace.2 j hj hu.brace⟩

/-- Where the first object stands behind the first brace, there is none at the first brace. -/
theorem FirstObject.not_objectAt {text t u : List Char} {i j : Nat} (h : FirstObject text i t)
    (hi : ¬ FirstBrace text i) (hj : FirstBrace text j) : ¬ ObjectAt text j u := by
  intro hobject
  rcases Nat.lt_trichotomy j i with hlt | rfl | hgt
  · exact h.2 j u hlt hobject
  · exact hi hj
  · exact hj.2 i hgt h.1.brace

theorem balanced_str_eq_some_iff {text t : String} :
    balanced (.str text) = .ok (some t) ↔ findBalanced? text.toList = some t.toList := by
  rw [balanced, Except.ok.injEq, Option.map_eq_some_iff]
  constructor
  · rintro ⟨u, hu, rfl⟩
    rwa [String.toList_ofList]
  · exact fun ht => ⟨t.toList, ht, String.ofList_toList⟩

theorem balanced_str_eq_none_iff {text : String} :
    balanced (.str text) = .ok none ↔ findBalanced? text.toList = none := by
  rw [balanced, Except.ok.injEq, Option.map_eq_none_iff]

/-- What is found is the object at the first brace of a text, and nothing is found just where no object
stands there. So only the first object of a text is ever found, and it is where it stands at the first
brace, while one behind the first brace is not. -/
theorem object_at_first_brace (text : String) :
    (∀ t : String, balanced (.str text) = .ok (some t) ↔
      ∃ i, FirstBrace text.toList i ∧ ObjectAt text.toList i t.toList) ∧
    (balanced (.str text) = .ok none ↔
      ∀ i t, FirstBrace text.toList i → ¬ ObjectAt text.toList i t) ∧
    (∀ t : String, balanced (.str text) = .ok (some t) →
      ∃ i, FirstObject text.toList i t.toList) ∧
    ∀ (i : Nat) (t : String), FirstObject text.toList i t.toList →
      (FirstBrace text.toList i → balanced (.str text) = .ok (some t)) ∧
        (¬ FirstBrace text.toList i → balanced (.str text) = .ok none) := by
  have hfound (t : String) : balanced (.str text) = .ok (some t) ↔
      ∃ i, FirstBrace text.toList i ∧ ObjectAt text.toList i t.toList := by
    rw [balanced_str_eq_some_iff, findBalanced?_eq_some_iff]
  refine ⟨hfound, ?_, fun t ht => ?_, fun i t hfirst => ⟨fun hbrace => ?_, fun hbehind => ?_⟩⟩
  · rw [balanced_str_eq_none_iff, findBalanced?_eq_none_iff]
  · obtain ⟨i, hbrace, hobject⟩ := (hfound t).mp ht
    exact ⟨i, firstObject_of_firstBrace hbrace hobject⟩
  · exact (hfound t).mpr ⟨i, hbrace, hfirst.1⟩
  · rw [balanced_str_eq_none_iff, findBalanced?_eq_none_iff]
    exact fun j u hbrace => hfirst.not_objectAt hbehind hbrace

/-- The object in an object that breaks off is not found, nor is one behind an open brace of the
prose. -/
theorem object_behind_open_brace :
    (FirstObject "\x7b\"a\": \x7b\"b\": 1\x7d".toList 6 "\x7b\"b\": 1\x7d".toList ∧
      balanced (.str "\x7b\"a\": \x7b\"b\": 1\x7d") = .ok none) ∧
    (FirstObject "Start with \x7b, then \x7b\"pipeline\": []\x7d".toList 19
        "\x7b\"pipeline\": []\x7d".toList ∧
      balanced (.str "Start with \x7b, then \x7b\"pipeline\": []\x7d") = .ok none) := by
  have hfirst {text t : List Char} {i : Nat} (ht : object? text i = some t)
      (hbefore : ∀ j < i, object? text j = none) : FirstObject text i t := by
    refine ⟨object?_eq_some_iff.mp ht, fun j u hj hobject => ?_⟩
    rw [← object?_eq_some_iff, hbefore j hj] at hobject
    cases hobject
  exact ⟨⟨hfirst (by decide) (by decide), by decide⟩, hfirst (by decide) (by decide), by decide⟩

end Inquiry.Reply
