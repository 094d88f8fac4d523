import Mathlib.Tactic.MkIffOfInductiveProp
import Inquiry.Chart.Names
import Inquiry.Proofs.Text.Words

/-!
# Names as they are shown

A name in ASCII is shown as words with one space between each two of them, and a word has a capital at
its start or nowhere. Names of that form are shown as they are, and no others are, so that a name that
was shown may be shown again.
-/
namespace Inquiry.Chart

open Text (isBlank)
open Text.Chars

variable {s w rest before : List Char} {c d : Char} {ws : List (List Char)}

def IsAscii (s : List Char) : Prop := ∀ c ∈ s, c.toNat < 128

instance (s : List Char) : Decidable (IsAscii s) :=
  List.decidableBAll (fun c : Char => c.toNat < 128) s

/-- A word in the form in which it is shown. What has no capital may stand at its start as it is. -/
structure IsDisplayWord (w : List Char) : Prop where
  word : IsWord w
  ascii : IsAscii w
  apart : '_' ∉ w
  start : ∀ c ∈ w.head?, c.isLower = false
  rest : ∀ c ∈ w.tail, c.isUpper = false

/-- A name in the form in which it is shown. -/
structure IsDisplayName (s : List Char) : Prop where
  words : ∃ ws, s = joinWith [' '] ws ∧ ∀ w ∈ ws, IsDisplayWord w
  trimmed : Trimmed s

theorem isCapital_eq_isUpper (c : Char) : isCapital c = c.isUpper := by
  show isCapital c = decide ('A' ≤ c ∧ c ≤ 'Z')
  rw [isCapital, Bool.decide_and]

/-- A letter `d` that stands for `c` once no letter of the class `p` may be left. -/
@[mk_iff]
structure Recased (p : Char → Bool) (c d : Char) : Prop where
  ascii : d.toNat < 128
  changed : p d = false
  blank : isBlank d = isBlank c
  joint : d = '_' ↔ c = '_'
  kept : p c = false → d = c

instance (p : Char → Bool) (c d : Char) : Decidable (Recased p c d) :=
  decidable_of_iff _ (recased_iff p c d).symm

theorem recased_toUpper (h : c.toNat < 128) : Recased Char.isLower c c.toUpper := by
  have htable : ∀ n < 128, Recased Char.isLower (Char.ofNat n) (Char.ofNat n).toUpper := by decide
  have hc := htable c.toNat h
  rwa [Char.ofNat_toNat] at hc

theorem recased_toLower (h : c.toNat < 128) : Recased Char.isUpper c c.toLower := by
  have htable : ∀ n < 128, Recased Char.isUpper (Char.ofNat n) (Char.ofNat n).toLower := by decide
  have hc := htable c.toNat h
  rwa [Char.ofNat_toNat] at hc

theorem lowerFrom_ascii (h : IsAscii s) : lowerFrom before s = s.map Char.toLower := by
  induction s generalizing before with
  | nil => rfl
  | cons c s ih =>
    obtain ⟨hc, hs⟩ := List.forall_mem_cons.mp h
    rw [lowerFrom, lowerBetween, if_neg (by omega), lowerChar, if_pos hc, ih hs, List.map_cons,
      List.singleton_append]

theorem capitalize_ascii (h : IsAscii (c :: rest)) :
    capitalize (c :: rest) = c.toUpper :: rest.map Char.toLower := by
  obtain ⟨hc, hrest⟩ := List.forall_mem_cons.mp h
  rw [capitalize, upperChar, if_pos hc, lower, lowerFrom_ascii hrest, List.singleton_append]

theorem isDisplayWord_capitalize (hword : IsWord w) (hascii : IsAscii w) (hjoint : '_' ∉ w) :
    IsDisplayWord (capitalize w) := by
  obtain ⟨c, rest, rfl⟩ := List.exists_cons_of_ne_nil hword.nonempty
  rw [capitalize_ascii hascii]
  obtain ⟨hc, hrest⟩ := List.forall_mem_cons.mp hascii
  obtain ⟨hsolid, hsolids⟩ := List.forall_mem_cons.mp hword.solid
  rw [List.mem_cons, not_or] at hjoint
  have hupper := recased_toUpper hc
  have hlower (d : Char) (hd : d ∈ rest) := recased_toLower (hrest d hd)
  refine ⟨⟨List.cons_ne_nil _ _, ?_⟩, ?_, ?_, ?_, ?_⟩
  · refine List.forall_mem_cons.mpr ⟨hupper.blank.trans hsolid, List.forall_mem_map.mpr ?_⟩
    exact fun d hd => (hlower d hd).blank.trans (hsolids d hd)
  · refine List.forall_mem_cons.mpr ⟨hupper.ascii, List.forall_mem_map.mpr ?_⟩
    exact fun d hd => (hlower d hd).ascii
  · rw [List.mem_cons, not_or]
    refine ⟨fun h => hjoint.1 (hupper.joint.mp h.symm).symm, fun h => ?_⟩
    obtain ⟨d, hd, hdjoint⟩ := List.mem_map.mp h
    exact hjoint.2 ((hlower d hd).joint.mp hdjoint ▸ hd)
  · intro d hd
    obtain rfl := Option.some.inj hd
    exact hupper.changed
  · exact List.forall_mem_map.mpr fun d hd => (hlower d hd).changed

theorem isAscii_spaceCapitals (h : IsAscii s) : IsAscii (spaceCapitals s) := by
  intro d hd
  obtain ⟨c, hc, hd⟩ := List.mem_flatMap.mp hd
  have hascii := h c hc
  split at hd
  · have hspace : ' '.toNat < 128 := by decide
    simp only [List.mem_cons, List.not_mem_nil, or_false] at hd
    rcases hd with rfl | rfl
    · exact hspace
    · exact hascii
  · rw [List.mem_singleton.mp hd]
    exact hascii

theorem mem_replaceChar (h : d ∈ replaceChar '_' ' ' s) : d ≠ '_' ∧ (d = ' ' ∨ d ∈ s) := by
  obtain ⟨c, hc, rfl⟩ := List.mem_map.mp h
  split
  · exact ⟨by decide, .inl rfl⟩
  · rename_i hne
    exact ⟨hne, .inr hc⟩

theorem isDisplayWord_of_mem (h : IsAscii s) : ∀ w ∈ displayWords s, IsDisplayWord w := by
  intro w hw
  obtain ⟨plain, hplain, rfl⟩ := List.mem_map.mp hw
  have hmem (d : Char) (hd : d ∈ plain) : d ≠ '_' ∧ (d = ' ' ∨ d ∈ spaceCapitals s) :=
    mem_replaceChar (subset_of_mem_words hplain hd)
  refine isDisplayWord_capitalize (isWord_of_mem_words hplain) (fun d hd => ?_)
    fun hd => (hmem _ hd).1 rfl
  rcases (hmem d hd).2 with rfl | hd
  · decide
  · exact isAscii_spaceCapitals h d hd

theorem displayWords_joinWith (ps : List (List Char)) :
    displayWords (joinWith [' '] ps) = ps.flatMap displayWords := by
  have hspaced : spaceCapitals (joinWith [' '] ps) = joinWith [' '] (ps.map spaceCapitals) :=
    flatMap_joinWith ps _ [' ']
  have hspace : replaceChar '_' ' ' [' '] = [' '] := rfl
  rw [displayWords, hspaced, replaceChar_joinWith, hspace, words_joinWith, List.map_flatMap,
    List.map_map, List.flatMap_map]
  rfl

theorem spaceCapitals_of_no_capital (h : ∀ c ∈ s, c.isUpper = false) : spaceCapitals s = s := by
  induction s with
  | nil => rfl
  | cons c s ih =>
    obtain ⟨hc, hs⟩ := List.forall_mem_cons.mp h
    rw [spaceCapitals, List.flatMap_cons, isCapital_eq_isUpper, hc, if_neg Bool.false_ne_true]
    exact congrArg (c :: ·) (ih hs)

theorem replaceChar_of_not_mem (h : '_' ∉ s) : replaceChar '_' ' ' s = s := by
  have hkept : ∀ c ∈ s, (if c = '_' then ' ' else c) = c := by
    intro c hc
    refine if_neg fun hjoint => h ?_
    rwa [hjoint] at hc
  exact (List.map_congr_left hkept).trans (List.map_id' s)

theorem IsDisplayWord.capitalize_eq (h : IsDisplayWord w) : capitalize w = w := by
  obtain ⟨c, rest, rfl⟩ := List.exists_cons_of_ne_nil h.word.nonempty
  obtain ⟨hc, hrest⟩ := List.forall_mem_cons.mp h.ascii
  have hlower : ∀ d ∈ rest, d.toLower = d :=
    fun d hd => (recased_toLower (hrest d hd)).kept (h.rest d hd)
  rw [capitalize_ascii h.ascii, (recased_toUpper hc).kept (h.start c rfl),
    (List.map_congr_left hlower).trans (List.map_id' rest)]

/-- The space before its capital does not take a word apart. -/
theorem IsDisplayWord.displayWords_eq (h : IsDisplayWord w) : displayWords w = [w] := by
  have hspaced : spaceCapitals w = w ∨ spaceCapitals w = ' ' :: w := by
    obtain ⟨c, rest, rfl⟩ := List.exists_cons_of_ne_nil h.word.nonempty
    have hrest : spaceCapitals rest = rest := spaceCapitals_of_no_capital h.rest
    change (if isCapital c then [' ', c] else [c]) ++ spaceCapitals rest = c :: rest ∨
      (if isCapital c then [' ', c] else [c]) ++ spaceCapitals rest = ' ' :: c :: rest
    rw [hrest]
    split
    · exact .inr rfl
    · exact .inl rfl
  have hwords : words (replaceChar '_' ' ' (spaceCapitals w)) = [w] := by
    have hkept := replaceChar_of_not_mem h.apart
    rcases hspaced with hspaced | hspaced
    · rw [hspaced, hkept, h.word.words_eq]
    · have hspace : replaceChar '_' ' ' (' ' :: w) = ' ' :: replaceChar '_' ' ' w := rfl
      rw [hspaced, hspace, hkept, words_space, h.word.words_eq]
  rw [displayWords, hwords, List.map_singleton, h.capitalize_eq]

theorem IsDisplayName.displayChars_eq (h : IsDisplayName s) : displayChars s = s := by
  obtain ⟨⟨ws, rfl, h⟩, -⟩ := h
  have hwords : ws.flatMap displayWords = ws.flatMap fun w => [w] :=
    List.flatMap_congr fun w hw => (h w hw).displayWords_eq
  rw [displayChars, displayWords_joinWith, hwords, List.flatMap_singleton']

theorem isDisplayName_displayChars (h : IsAscii s) : IsDisplayName (displayChars s) :=
  ⟨⟨displayWords s, rfl, isDisplayWord_of_mem h⟩,
    trimmed_joinWith fun w hw => (isDisplayWord_of_mem h w hw).word⟩

/-- Names in the form in which they are shown, and no others, are shown as they are. -/
theorem displayChars_eq_self_iff (h : IsAscii s) : displayChars s = s ↔ IsDisplayName s := by
  refine ⟨fun hself => ?_, IsDisplayName.displayChars_eq⟩
  rw [← hself]
  exact isDisplayName_displayChars h

/-- A name in ASCII is shown in words with one space between each two of them, none of them with an
underscore or another blank in it, with a capital after its start or with a small letter there. Such
names, and no others, are shown as they are, a name that was shown among them. -/
theorem displayName_canonical (name : String) (h : IsAscii name.toList) :
    displayName (displayName name) = displayName name ∧
      IsDisplayName (displayName name).toList ∧
      (displayName name = name ↔ IsDisplayName name.toList) := by
  have hshown : IsDisplayName (displayChars name.toList) := isDisplayName_displayChars h
  refine ⟨?_, ?_, ?_⟩
  · rw [displayName, displayName, String.toList_ofList, hshown.displayChars_eq]
  · rwa [displayName, String.toList_ofList]
  · rw [displayName, ← displayChars_eq_self_iff h, ← String.toList_inj, String.toList_ofList]

private def jumbled : String := " orders__perHTTP_2ndUser\tid"

theorem displayName_canonical_jumbled : IsAscii jumbled.toList ∧
    displayName jumbled = "Orders Per H T T P 2nd User Id" ∧
    displayName (displayName jumbled) = displayName jumbled ∧
    IsDisplayName (displayName jumbled).toList ∧
    (displayName jumbled = jumbled ↔ IsDisplayName jumbled.toList) := by
  have hascii : IsAscii jumbled.toList := by decide
  exact ⟨hascii, by decide +kernel, displayName_canonical jumbled hascii⟩

/-- Beyond ASCII a letter may have two capitals, which are taken apart. -/
example : displayName "ß" = "SS" ∧ displayName "SS" = "S S" := by decide +kernel

end Inquiry.Chart
