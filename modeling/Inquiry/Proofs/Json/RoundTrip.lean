import Inquiry.Proofs.Json.Doubles
import Inquiry.Proofs.Json.Strings

/-!
# Reading what is written

JSON text on one line, with a space after each comma and colon, is read back as the value that it was
written for: arrays in their order, objects with their keys in theirs.
-/
namespace Inquiry.Json

open Decimal (digitsOf)

mutual

/-- JSON text in ASCII on one line. -/
def dump : Value → List Char
  | .null => "null".toList
  | .bool b => (if b then "true" else "false").toList
  | .int n => (toString n).toList
  | .float x => (compactStyle.floats.text x).toList
  | .str s => (string true s).toList
  | .list xs => '[' :: dumpItems xs
  | .dict es => '\x7b' :: dumpMembers es
  | _ => []

/-- The items of an array and its end. -/
def dumpItems : List Value → List Char
  | [] => [']']
  | v :: vs => dump v ++ dumpMoreItems vs

def dumpMoreItems : List Value → List Char
  | [] => [']']
  | v :: vs => ',' :: ' ' :: (dump v ++ dumpMoreItems vs)

/-- The members of an object and its end. -/
def dumpMembers : List (Value × Value) → List Char
  | [] => ['\x7d']
  | (k, v) :: es => dump k ++ ':' :: ' ' :: (dump v ++ dumpMoreMembers es)

def dumpMoreMembers : List (Value × Value) → List Char
  | [] => ['\x7d']
  | (k, v) :: es => ',' :: ' ' :: (dump k ++ ':' :: ' ' :: (dump v ++ dumpMoreMembers es))

end

/-- The values of JSON with at most `room` brackets around anything in them. The keys of an object are
distinct texts, and an integer is not longer than one that is read. -/
inductive Plain : Nat → Value → Prop where
  | null (room : Nat) : Plain room .null
  | bool (room : Nat) (b : Bool) : Plain room (.bool b)
  | int (room : Nat) (n : Int) (short : (digitsOf n.natAbs).length ≤ 4300) : Plain room (.int n)
  | float (room : Nat) (x : Float) : Plain room (.float x)
  | str (room : Nat) (s : String) : Plain room (.str s)
  | list (room : Nat) (xs : List Value) (items : ∀ x ∈ xs, Plain room x) :
    Plain (room + 1) (.list xs)
  | doc (room : Nat) (fields : List (String × Value)) (keys : (fields.map Prod.fst).Nodup)
    (members : ∀ f ∈ fields, Plain room f.2) : Plain (room + 1) (Value.doc fields)

theorem doc_injective : Function.Injective Value.doc := by
  intro fs gs h
  refine List.map_injective_iff.mpr ?_ (Value.dict.inj h)
  intro f g h
  obtain ⟨hkey, hvalue⟩ := Prod.mk.inj h
  exact Prod.ext (Value.str.inj hkey) hvalue

theorem Plain.of_member {room : Nat} {fields : List (String × Value)} (h : Plain room (Value.doc fields))
    {f : String × Value} (hf : f ∈ fields) : Plain (room - 1) f.2 := by
  generalize hv : Value.doc fields = v at h
  cases h with
  | doc room fields' keys members =>
    rw [doc_injective hv] at hf
    exact members f hf
  | _ => cases hv

theorem skipSpace_cons {c : Char} (h : isSpace c = false) (s : List Char) :
    skipSpace (c :: s) = c :: s :=
  List.dropWhile_cons_of_neg (by rw [h]; decide)

theorem skipSpace_space (s : List Char) : skipSpace (' ' :: s) = skipSpace s := rfl

theorem readString_dump (s : String) (rest : List Char) :
    readString ('"' :: (stringBody true s.toList ++ '"' :: rest)) []
      (stringBody true s.toList ++ '"' :: rest) = .ok (s, rest) := by
  rw [readString_stringBody, List.reverse_nil, List.nil_append, String.ofList_toList]

theorem dump_str (s : String) (rest : List Char) :
    dump (.str s) ++ rest = '"' :: (stringBody true s.toList ++ '"' :: rest) := by
  simp [dump, string]

theorem readValue_str (room fuel : Nat) (s : String) (rest : List Char) :
    readValue room (fuel + 1) (dump (.str s) ++ rest) = .ok (.str s, rest) := by
  rw [dump_str, readValue, readString_dump]
  rfl

theorem readValue_array {room fuel : Nat} {s : List Char} {r : Value × List Char}
    (hroom : 0 < room) (hs : ∃ c t, s = c :: t ∧ isSpace c = false ∧ c ≠ ']')
    (h : readItems (room - 1) fuel [] s = .ok r) : readValue room (fuel + 1) ('[' :: s) = .ok r := by
  obtain ⟨c, t, rfl, hspace, hend⟩ := hs
  rw [readValue, if_neg (by omega), skipSpace_cons hspace]
  split
  · next heq => exact absurd (List.cons.inj heq).1 hend
  · exact h

theorem readValue_object {room fuel : Nat} {s : List Char} {r : Value × List Char}
    (hroom : 0 < room) (h : readMembers (room - 1) fuel [] ('"' :: s) = .ok r) :
    readValue room (fuel + 1) ('\x7b' :: '"' :: s) = .ok r := by
  rw [readValue, if_neg (by omega), skipSpace_cons (by decide)]
  exact h

theorem same_str (s t : String) : Value.same (.str s) (.str t) = (s == t) := rfl

/-- A mapping with text keys, as a list of entries. -/
def entries (fields : List (String × Value)) : List (Value × Value) :=
  fields.map fun f => (.str f.1, f.2)

theorem insertEntry_entries {key : String} {fields : List (String × Value)}
    (hnew : key ∉ fields.map Prod.fst) (v : Value) :
    Value.insertEntry (.str key) v (entries fields) = entries (fields ++ [(key, v)]) := by
  induction fields with
  | nil => rfl
  | cons f fields ih =>
    rw [List.map_cons, List.mem_cons, not_or] at hnew
    have hsame : Value.same (.str f.1) (.str key) = false := by
      rw [same_str, beq_eq_false_iff_ne]
      exact Ne.symm hnew.1
    change Value.insertEntry (.str key) v ((.str f.1, f.2) :: entries fields) = _
    rw [Value.insertEntry, hsame, if_neg Bool.false_ne_true, ih hnew.2]
    rfl

/-- Whether a value is read back from its text, whatever follows that cannot go it on. The calls are
counted by the characters, two for each. -/
def ReadBack (room : Nat) (v : Value) : Prop :=
  ∀ (fuel : Nat) (rest : List Char), StartsWithout goesOn rest → 2 * (dump v).length + 1 ≤ fuel →
    readValue room fuel (dump v ++ rest) = .ok (v, rest)

theorem readBack_of_succ {room : Nat} {v : Value}
    (h : ∀ (fuel : Nat) (rest : List Char), StartsWithout goesOn rest → 2 * (dump v).length ≤ fuel →
      readValue room (fuel + 1) (dump v ++ rest) = .ok (v, rest)) : ReadBack room v := by
  intro fuel rest hrest hfuel
  obtain ⟨n, rfl⟩ : ∃ n, fuel = n + 1 := ⟨fuel - 1, by omega⟩
  exact h n rest hrest (by omega)

/-- What is read back starts with neither a blank nor the end of an array. -/
theorem ReadBack.head {room : Nat} {v : Value} (h : ReadBack room v) (s : List Char) :
    ∃ c t, dump v ++ s = c :: t ∧ isSpace c = false ∧ c ≠ ']' := by
  obtain ⟨c, t, hc, hspace, hend⟩ := head_of_readValue
    (h (2 * (dump v).length + 1) [] (startsWithout_nil _) le_rfl)
  rw [List.append_nil] at hc
  exact ⟨c, t ++ s, by rw [hc, List.cons_append], hspace, hend⟩

theorem ReadBack.skipSpace {room : Nat} {v : Value} (h : ReadBack room v) (s : List Char) :
    skipSpace (dump v ++ s) = dump v ++ s := by
  obtain ⟨c, t, hc, hspace, -⟩ := h.head s
  rw [hc, skipSpace_cons hspace]

theorem readItems_dump {room : Nat} {v : Value} {vs : List Value} (hv : ReadBack room v)
    (hvs : ∀ w ∈ vs, ReadBack room w) (fuel : Nat) (acc : List Value) (rest : List Char)
    (hfuel : 2 * (dumpItems (v :: vs)).length ≤ fuel) :
    readItems room fuel acc (dumpItems (v :: vs) ++ rest) =
      .ok (.list (acc.reverse ++ v :: vs), rest) := by
  induction vs generalizing v fuel acc with
  | nil =>
    simp only [dumpItems, dumpMoreItems, List.length_append, List.length_singleton] at hfuel
    obtain ⟨fuel, rfl⟩ : ∃ n, fuel = n + 1 := ⟨fuel - 1, by omega⟩
    have hread := hv fuel (']' :: rest) (startsWithout_cons (by decide) _) (by omega)
    simp only [dumpItems, dumpMoreItems, List.append_assoc, List.singleton_append]
    rw [readItems, hread]
    change Except.ok _ = _
    rw [List.reverse_cons]
  | cons w ws ih =>
    have hitems : dumpItems (v :: w :: ws) = dump v ++ ',' :: ' ' :: dumpItems (w :: ws) := rfl
    rw [hitems, List.length_append, List.length_cons, List.length_cons] at hfuel
    obtain ⟨fuel, rfl⟩ : ∃ n, fuel = n + 1 := ⟨fuel - 1, by omega⟩
    have hread := hv fuel (',' :: ' ' :: (dumpItems (w :: ws) ++ rest))
      (startsWithout_cons (by decide) _) (by omega)
    have hw : ReadBack room w := hvs w List.mem_cons_self
    have hskip : skipSpace (' ' :: (dumpItems (w :: ws) ++ rest)) = dumpItems (w :: ws) ++ rest := by
      rw [skipSpace_space, dumpItems, List.append_assoc, hw.skipSpace]
    have hmore := ih hw (fun u hu => hvs u (List.mem_cons_of_mem w hu)) fuel (v :: acc) (by omega)
    rw [hitems, List.append_assoc, List.cons_append, List.cons_append, readItems, hread]
    change readItems room fuel (v :: acc) (skipSpace (' ' :: (dumpItems (w :: ws) ++ rest))) = _
    rw [hskip, hmore, List.reverse_cons, List.append_assoc]
    rfl

section Members

variable {room fuel : Nat} {f : String × Value} {acc : List (String × Value)} (hf : ReadBack room f.2)
  (hnew : f.1 ∉ acc.map Prod.fst) (hfuel : 2 * (dump f.2).length + 1 ≤ fuel) (rest : List Char)
include hf hnew hfuel

theorem readMembers_last :
    readMembers room (fuel + 1) (entries acc)
      (dump (.str f.1) ++ ':' :: ' ' :: (dump f.2 ++ '\x7d' :: rest)) =
      .ok (.dict (entries (acc ++ [f])), rest) := by
  rw [dump_str, readMembers, readString_dump]
  change Except.bind (readValue room fuel (skipSpace (dump f.2 ++ '\x7d' :: rest))) _ = _
  rw [hf.skipSpace, hf fuel _ (startsWithout_cons (by decide) _) hfuel, ← insertEntry_entries hnew]
  rfl

theorem readMembers_next :
    readMembers room (fuel + 1) (entries acc)
      (dump (.str f.1) ++ ':' :: ' ' :: (dump f.2 ++ ',' :: ' ' :: rest)) =
      readMembers room fuel (entries (acc ++ [f])) (skipSpace rest) := by
  rw [dump_str, readMembers, readString_dump]
  change Except.bind (readValue room fuel (skipSpace (dump f.2 ++ ',' :: ' ' :: rest))) _ = _
  rw [hf.skipSpace, hf fuel _ (startsWithout_cons (by decide) _) hfuel, ← insertEntry_entries hnew]
  rfl

end Members

theorem dumpMembers_one (f : String × Value) :
    dumpMembers (entries [f]) = dump (.str f.1) ++ ':' :: ' ' :: (dump f.2 ++ ['\x7d']) := by
  simp only [entries, List.map_cons, List.map_nil, dumpMembers, dumpMoreMembers]

theorem dumpMembers_cons (f g : String × Value) (gs : List (String × Value)) :
    dumpMembers (entries (f :: g :: gs)) = dump (.str f.1) ++ ':' :: ' ' ::
      (dump f.2 ++ ',' :: ' ' :: dumpMembers (entries (g :: gs))) := by
  simp only [entries, List.map_cons, dumpMembers, dumpMoreMembers]

/-- The members of an object start with a key. -/
theorem dumpMembers_quote (f : String × Value) (fs : List (String × Value)) (rest : List Char) :
    ∃ s, dumpMembers (entries (f :: fs)) ++ rest = '"' :: s := by
  cases fs with
  | nil =>
    rw [dumpMembers_one, List.append_assoc, dump_str]
    exact ⟨_, rfl⟩
  | cons g gs =>
    rw [dumpMembers_cons, List.append_assoc, dump_str]
    exact ⟨_, rfl⟩

theorem skipSpace_dumpMembers (f : String × Value) (fs : List (String × Value)) (rest : List Char) :
    skipSpace (dumpMembers (entries (f :: fs)) ++ rest) = dumpMembers (entries (f :: fs)) ++ rest := by
  obtain ⟨s, hs⟩ := dumpMembers_quote f fs rest
  rw [hs, skipSpace_cons (by decide)]

theorem readMembers_dump {room : Nat} {f : String × Value} {fs : List (String × Value)}
    (hf : ReadBack room f.2) (hfs : ∀ g ∈ fs, ReadBack room g.2) (fuel : Nat)
    (acc : List (String × Value)) (rest : List Char) (hkeys : ((acc ++ f :: fs).map Prod.fst).Nodup)
    (hfuel : 2 * (dumpMembers (entries (f :: fs))).length ≤ fuel) :
    readMembers room fuel (entries acc) (dumpMembers (entries (f :: fs)) ++ rest) =
      .ok (.dict (entries (acc ++ f :: fs)), rest) := by
  induction fs generalizing f fuel acc with
  | nil =>
    have hnew : f.1 ∉ acc.map Prod.fst := by
      rw [List.map_append] at hkeys
      exact fun hmem => List.disjoint_of_nodup_append hkeys hmem List.mem_cons_self
    rw [dumpMembers_one] at hfuel ⊢
    simp only [List.length_append, List.length_cons] at hfuel
    obtain ⟨fuel, rfl⟩ : ∃ n, fuel = n + 1 := ⟨fuel - 1, by omega⟩
    rw [List.append_assoc, List.cons_append, List.cons_append, List.append_assoc]
    exact readMembers_last hf hnew (by omega) rest
  | cons g gs ih =>
    have hnew : f.1 ∉ acc.map Prod.fst := by
      rw [List.map_append] at hkeys
      exact fun hmem => List.disjoint_of_nodup_append hkeys hmem List.mem_cons_self
    rw [dumpMembers_cons] at hfuel ⊢
    simp only [List.length_append, List.length_cons] at hfuel
    obtain ⟨fuel, rfl⟩ : ∃ n, fuel = n + 1 := ⟨fuel - 1, by omega⟩
    rw [List.append_assoc, List.cons_append, List.cons_append, List.append_assoc, List.cons_append,
      List.cons_append, readMembers_next hf hnew (by omega), skipSpace_dumpMembers]
    have hmore := ih (hfs g List.mem_cons_self) (fun e he => hfs e (List.mem_cons_of_mem g he)) fuel
      (acc ++ [f]) (by rwa [List.append_assoc]) (by omega)
    rwa [List.append_assoc] at hmore

/-- Every value of JSON is read back. -/
theorem Plain.readBack {room : Nat} {v : Value} (h : Plain room v) : ReadBack room v := by
  induction h with
  | null room =>
    exact readBack_of_succ fun fuel rest _ _ =>
      readValue_name room fuel (by decide) (by decide) (by decide) rfl
  | bool room b =>
    refine readBack_of_succ fun fuel rest _ _ => ?_
    cases b with
    | true => exact readValue_name room fuel (by decide) (by decide) (by decide) rfl
    | false => exact readValue_name room fuel (by decide) (by decide) (by decide) rfl
  | int room n short => exact readBack_of_succ fun fuel _ hrest _ => readValue_int room fuel short hrest
  | float room x => exact readBack_of_succ fun fuel _ hrest _ => readValue_float x room fuel hrest
  | str room s => exact readBack_of_succ fun fuel rest _ _ => readValue_str room fuel s rest
  | list room xs items ih =>
    refine readBack_of_succ fun fuel rest _ hfuel => ?_
    cases xs with
    | nil => 
      rw [dump, dumpItems, List.cons_append, readValue, if_neg (Nat.succ_ne_zero room)]
      rfl
    | cons x xs =>
      have hx : ReadBack room x := ih x List.mem_cons_self
      have hxs : ∀ y ∈ xs, ReadBack room y := fun y hy => ih y (List.mem_cons_of_mem x hy)
      simp only [dump, List.length_cons] at hfuel
      have hitems : dumpItems (x :: xs) ++ rest = dump x ++ (dumpMoreItems xs ++ rest) :=
        List.append_assoc ..
      have hhead := hx.head (dumpMoreItems xs ++ rest)
      rw [← hitems] at hhead
      exact readValue_array (Nat.succ_pos room) hhead (readItems_dump hx hxs fuel [] rest (by omega))
  | doc room fields keys members ih =>
    refine readBack_of_succ fun fuel rest _ hfuel => ?_
    cases fields with
    | nil =>
      rw [Value.doc, List.map_nil, dump, dumpMembers, List.cons_append, readValue,
        if_neg (Nat.succ_ne_zero room)]
      rfl
    | cons f fs =>
      have hf : ReadBack room f.2 := ih f List.mem_cons_self
      have hfs : ∀ g ∈ fs, ReadBack room g.2 := fun g hg => ih g (List.mem_cons_of_mem f hg)
      have hdump : dump (Value.doc (f :: fs)) = '\x7b' :: dumpMembers (entries (f :: fs)) := rfl
      rw [hdump, List.length_cons] at hfuel
      have hread := readMembers_dump hf hfs fuel [] rest keys (by omega)
      obtain ⟨s, hs⟩ := dumpMembers_quote f fs rest
      rw [hs] at hread
      rw [hdump, List.cons_append, hs]
      exact readValue_object (Nat.succ_pos room) hread

/-- Reading is the inverse of writing. -/
theorem parse_dump {v : Value} (h : Plain maxDepth v) : parse (String.ofList (dump v)) = .ok v := by
  have hskip := h.readBack.skipSpace []
  have hread := h.readBack (2 * (dump v).length + 2) [] (startsWithout_nil _) (by omega)
  rw [List.append_nil] at hskip hread
  have hall : readAll (dump v) = .ok v := by
    rw [readAll, hskip, hread]
    rfl
  rw [parse, String.toList_ofList, hall]

end Inquiry.Json
