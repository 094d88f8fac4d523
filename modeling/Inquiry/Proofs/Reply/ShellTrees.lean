import Inquiry.Proofs.Reply.ShellLiterals

/-!
# JSON trees with shell literals

A JSON tree whose leaves may be shell literals is written with any blanks between its tokens, and with
any escapes in its strings. If no string of it holds the name of a literal, then the text without shell
literals is the tree with a string or a number in the place of each literal, with all else as it was.
That text is JSON.
-/
namespace Inquiry.Reply

open Json (StandsFor Whole signText)
open Json.Grammar (Body Gap IsValue Items Member Members Numeral Padded)

/-- The text between the quotes of a string literal, and what it stands for. -/
structure StringText where
  text : List Char
  value : List Char
  standsFor : StandsFor text value
  unmarked : Unmarked value

def StringText.literal (x : StringText) : List Char := '"' :: (x.text ++ ['"'])

abbrev Blanks := {t : List Char // Gap t}

/-- A key with the blanks around it. -/
structure KeyText where
  before : Blanks
  name : StringText
  after : Blanks

def KeyText.text (x : KeyText) : List Char := x.before.1 ++ (x.name.literal ++ x.after.1)

mutual

/-- A JSON tree as it is written, whose leaves may be shell literals. -/
inductive ShellTree
  | null
  | bool (b : Bool)
  | number (x : {x : List Char // Numeral x})
  | string (x : StringText)
  | literal (w : ShellLiteral)
  | emptyArray (gap : Blanks)
  | array (items : ShellItems)
  | emptyObject (gap : Blanks)
  | object (members : ShellMembers)

/-- A tree with the blanks around it. -/
inductive PaddedTree
  | mk (before : Blanks) (tree : ShellTree) (after : Blanks)

inductive ShellItems
  | one (item : PaddedTree)
  | more (item : PaddedTree) (items : ShellItems)

inductive ShellMembers
  | one (key : KeyText) (value : PaddedTree)
  | more (key : KeyText) (value : PaddedTree) (members : ShellMembers)

end

section Print

variable (leaf : ShellLiteral → List Char)

mutual

/-- The text of a tree, with `leaf` for its shell literals. -/
def ShellTree.print : ShellTree → List Char
  | .null => "null".toList
  | .bool b => if b then "true".toList else "false".toList
  | .number x => x.1
  | .string x => x.literal
  | .literal w => leaf w
  | .emptyArray gap => '[' :: (gap.1 ++ [']'])
  | .array items => '[' :: (items.print ++ [']'])
  | .emptyObject gap => '\x7b' :: (gap.1 ++ ['\x7d'])
  | .object members => '\x7b' :: (members.print ++ ['\x7d'])

def PaddedTree.print : PaddedTree → List Char
  | .mk before tree after => before.1 ++ (tree.print ++ after.1)

def ShellItems.print : ShellItems → List Char
  | .one item => item.print
  | .more item items => item.print ++ ',' :: items.print

def ShellMembers.print : ShellMembers → List Char
  | .one key value => key.text ++ ':' :: value.print
  | .more key value members => key.text ++ ':' :: value.print ++ ',' :: members.print

end

end Print

section Trees

variable {k : LiteralKind}

theorem Turns.bracket {c d : Char} {t u : List Char} (hc : LiteralKind.isFirst c = false)
    (hd : LiteralKind.isFirst d = false) (ht : Turns k.matcher t u) :
    Turns k.matcher (c :: (t ++ [d])) (c :: (u ++ [d])) :=
  (turns_char hc).append (ht.append (turns_char hd))

theorem Turns.separated {c : Char} {s t u v : List Char} (hs : Turns k.matcher s u)
    (hc : LiteralKind.isFirst c = false) (ht : Turns k.matcher t v) :
    Turns k.matcher (s ++ c :: t) (u ++ c :: v) :=
  hs.append ((turns_char hc).append ht)

theorem StringText.turns (x : StringText) : Turns k.matcher x.literal x.literal :=
  turns_string fun _ ho => not_infix_of_standsFor x.unmarked x.standsFor ho

theorem KeyText.turns (x : KeyText) : Turns k.matcher x.text x.text :=
  (turns_gap x.before.2).append (x.name.turns.append (turns_gap x.after.2))

variable {leaf leaf' : ShellLiteral → List Char}

mutual

theorem turns_tree (h : ∀ w, Turns k.matcher (leaf w) (leaf' w)) :
    ∀ tree : ShellTree, Turns k.matcher (tree.print leaf) (tree.print leaf')
  | .null => turns_null
  | .bool b => turns_bool b
  | .number x => turns_number (isNumberChar_of_numeral x.2)
  | .string x => x.turns
  | .literal w => h w
  | .emptyArray gap => (turns_gap gap.2).bracket (by decide) (by decide)
  | .array items => (turns_items h items).bracket (by decide) (by decide)
  | .emptyObject gap => (turns_gap gap.2).bracket (by decide) (by decide)
  | .object members => (turns_members h members).bracket (by decide) (by decide)

theorem turns_padded (h : ∀ w, Turns k.matcher (leaf w) (leaf' w)) :
    ∀ item : PaddedTree, Turns k.matcher (item.print leaf) (item.print leaf')
  | .mk before tree after =>
    (turns_gap before.2).append ((turns_tree h tree).append (turns_gap after.2))

theorem turns_items (h : ∀ w, Turns k.matcher (leaf w) (leaf' w)) :
    ∀ items : ShellItems, Turns k.matcher (items.print leaf) (items.print leaf')
  | .one item => turns_padded h item
  | .more item items => (turns_padded h item).separated (by decide) (turns_items h items)

theorem turns_members (h : ∀ w, Turns k.matcher (leaf w) (leaf' w)) :
    ∀ members : ShellMembers, Turns k.matcher (members.print leaf) (members.print leaf')
  | .one key value => key.turns.separated (by decide) (turns_padded h value)
  | .more key value members =>
    (key.turns.separated (by decide) (turns_padded h value)).separated (by decide)
      (turns_members h members)

end

end Trees

/-- The kinds that are left are replaced one after the other. -/
theorem foldl_substitute_print (tree : ShellTree) (done todo : List LiteralKind) :
    (todo.map LiteralKind.matcher).foldl (fun s m => substitute m 0 s)
        (tree.print (ShellLiteral.textAfter done)) =
      tree.print (ShellLiteral.textAfter (done ++ todo)) := by
  induction todo generalizing done with
  | nil => rw [List.append_nil, List.map_nil, List.foldl_nil]
  | cons k todo ih =>
    have hstep := (turns_tree (fun w => w.turns_textAfter (k := k) done) tree).substitute_eq
    rw [List.map_cons, List.foldl_cons, hstep, ih, List.append_assoc, List.singleton_append]

theorem isHexDigit_of_hexValue? {c : Char} {n : Nat} (h : Json.hexValue? c = some n) :
    Json.Grammar.isHexDigit c = true := by
  unfold Json.hexValue? at h
  split_ifs at h with hdigit hlower hupper
  · simp [Json.Grammar.isHexDigit, hdigit]
  · simp [Json.Grammar.isHexDigit, hlower]
  · simp [Json.Grammar.isHexDigit, hupper]

theorem body_of_hex4? {a b c d : Char} {n : Nat} (h : Json.hex4? a b c d = some n) {t : List Char}
    (ht : Body t) : Body (['\\', 'u', a, b, c, d] ++ t) := by
  unfold Json.hex4? at h
  split at h
  · rename_i ha hb hc hd
    refine .numeric ?_ ht
    simp [isHexDigit_of_hexValue? ha, isHexDigit_of_hexValue? hb, isHexDigit_of_hexValue? hc,
      isHexDigit_of_hexValue? hd]
  · cases h

theorem mem_shortEscapes {e c : Char} (h : Json.simpleEscape? e = some c) :
    e ∈ Json.Grammar.shortEscapes := by
  unfold Json.simpleEscape? at h
  split_ifs at h with hself hb hf hn hr ht
  · rcases hself with rfl | rfl | rfl <;> decide
  all_goals simp [Json.Grammar.shortEscapes, *]

theorem body_of_standsFor {t s : List Char} (h : StandsFor t s) : Body t := by
  induction h with
  | nil => exact .nil
  | plain quote slash printable rest ih => exact .plain quote slash (Nat.le_of_not_lt printable) ih
  | short escape rest ih => exact .short (mem_shortEscapes escape) ih
  | unit digits rest ih => exact body_of_hex4? digits ih
  | pair highDigits high lowDigits low rest ih =>
    exact body_of_hex4? highDigits (body_of_hex4? lowDigits ih)

theorem body_of_printable {s : List Char} (h : ∀ c ∈ s, Printable c) : Body s := by
  induction s with
  | nil => exact .nil
  | cons c s ih =>
    obtain ⟨hc, hs⟩ := List.forall_mem_cons.mp h
    have hquote : c ≠ '"' := by
      rintro rfl
      exact absurd hc.quote (by decide)
    exact .plain hquote hc.slash hc.low (ih hs)

theorem numeral_of_integer (negative : Bool) {ds : List Char} (h : Whole ds) :
    Numeral (signText negative ++ ds) := by
  have hnumeral := Numeral.mk negative h .none .none
  rwa [List.append_nil, List.append_nil] at hnumeral

theorem ShellLiteral.isValue_bare (w : ShellLiteral) : IsValue w.bare := by
  obtain ⟨kind, before, mark, argument, after, hbefore, hafter, htakes⟩ := w
  cases htakes with
  | text kinds quote nonempty printable unmarked =>
    have hstring : IsValue ('"' :: (argument ++ ['"'])) := .string (.mk (body_of_printable printable))
    simp only [List.mem_cons, List.not_mem_nil, or_false] at kinds
    rcases kinds with rfl | rfl | rfl <;> exact hstring
  | decimal marks numeral => exact .number numeral
  | @integer _ _ ds kinds marks negative whole =>
    have hnumber : IsValue (signText negative ++ ds) := .number (numeral_of_integer negative whole)
    simp only [List.mem_cons, List.not_mem_nil, or_false] at kinds
    rcases kinds with rfl | rfl <;> exact hnumber

theorem KeyText.member (x : KeyText) {t : List Char} (h : Padded t) : Member (x.text ++ ':' :: t) := by
  rw [KeyText.text, List.append_assoc, List.append_assoc]
  exact .mk x.before.2 (.mk (body_of_standsFor x.name.standsFor)) x.after.2 h

mutual

theorem isValue_print : ∀ tree : ShellTree, IsValue (tree.print ShellLiteral.bare)
  | .null => .null
  | .bool true => .true
  | .bool false => .false
  | .number x => .number x.2
  | .string x => .string (.mk (body_of_standsFor x.standsFor))
  | .literal w => w.isValue_bare
  | .emptyArray gap => .emptyArray gap.2
  | .array items => .array (items_print items)
  | .emptyObject gap => .object (.empty gap.2)
  | .object members => .object (.members (members_print members))

theorem padded_print : ∀ item : PaddedTree, Padded (item.print ShellLiteral.bare)
  | .mk before tree after => .mk before.2 (isValue_print tree) after.2

theorem items_print : ∀ items : ShellItems, Items (items.print ShellLiteral.bare)
  | .one item => .one (padded_print item)
  | .more item items => .more (padded_print item) (items_print items)

theorem members_print : ∀ members : ShellMembers, Members (members.print ShellLiteral.bare)
  | .one key value => .one (key.member (padded_print value))
  | .more key value members => .more (key.member (padded_print value)) (members_print members)

end

/-- Of the text of a tree, the shell literals are replaced and nothing else is, and what is left is
JSON. -/
theorem normalizeLiterals_print (tree : ShellTree) :
    normalizeLiterals (tree.print ShellLiteral.written) = tree.print ShellLiteral.bare ∧
      IsValue (tree.print ShellLiteral.bare) := by
  have hnone : ShellLiteral.textAfter [] = ShellLiteral.written :=
    funext fun w => if_neg List.not_mem_nil
  have hall : ShellLiteral.textAfter LiteralKind.all = ShellLiteral.bare :=
    funext fun w => if_pos w.kind.mem_all
  have hfold := foldl_substitute_print tree [] LiteralKind.all
  rw [hnone, List.nil_append, hall, ← LiteralKind.literals_eq] at hfold
  exact ⟨hfold, isValue_print tree⟩

example :
    normalizeLiterals
        "\x7b\"_id\": ObjectId( '65a1' ), \"n\": [NumberLong(\"42\"), 1.5]\x7d".toList =
      "\x7b\"_id\": \"65a1\", \"n\": [42, 1.5]\x7d".toList := by decide +kernel

end Inquiry.Reply
