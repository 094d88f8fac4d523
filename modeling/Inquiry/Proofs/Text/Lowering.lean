import Inquiry.Text.Blank
import Inquiry.Text.Case
import Mathlib.Data.List.DropRight

/-!
# Texts in lower case

Lower case is a normal form: lowering a text that was lowered changes nothing, although a character
may turn into several and a capital sigma is read in its place. No character is lost, and none turns
into a blank, so that a trimmed text stays trimmed.

That no image of the case table is moved on by the table is read off the bounds of its runs, two by
two, and not off their members.
-/
namespace Inquiry.Text

namespace CaseRun

variable {r t : CaseRun} {n m : Nat}

/-- The image of the first code point. -/
def low (r : CaseRun) : Nat := (r.first + r.shift).toNat

/-- The image of the last code point. -/
def high (r : CaseRun) : Nat := (r.last + r.shift).toNat

theorem image?_eq_some_iff : r.image? n = some m ↔
    (r.first ≤ n ∧ n ≤ r.last ∧ (n - r.first) % r.step = 0) ∧ (n + r.shift).toNat = m := by
  simp only [image?, Option.ite_none_right_eq_some, Bool.and_eq_true, decide_eq_true_eq,
    beq_iff_eq, Option.some.injEq, and_assoc]

/-- The images of `r` are no members of `t`: they lie on one side of them, or take turns with
them. -/
def apart (r t : CaseRun) : Bool :=
  r.high.blt t.first || t.last.blt r.low ||
    ((r.step == 2 || r.first == r.last) && t.step == 2 && (r.low + t.first) % 2 == 1)

theorem image?_eq_none_of_apart (hr : 0 ≤ r.first + r.shift) (hapart : r.apart t = true)
    (h : r.image? n = some m) : t.image? m = none := by
  obtain ⟨⟨hfirst, hlast, hstep⟩, rfl⟩ := image?_eq_some_iff.mp h
  rw [Option.eq_none_iff_forall_ne_some]
  intro k hk
  obtain ⟨⟨hfirst', hlast', hstep'⟩, -⟩ := image?_eq_some_iff.mp hk
  simp only [apart, Bool.or_eq_true, Bool.and_eq_true, Nat.blt_eq, beq_iff_eq] at hapart
  simp only [low, high] at hapart
  rcases hapart with (hbelow | habove) | ⟨⟨hevery, htwo⟩, hodd⟩
  · omega
  · omega
  · rw [htwo] at hstep'
    rcases hevery with hevery | hone
    · rw [hevery] at hstep
      omega
    · omega

/-- Code points that no run may lead to: the capitals and all that stands before them, the blanks,
the capital sigma, the capital that has two lower-case letters, the surrogates. -/
def reserved : List (Nat × Nat) :=
  [(0, 0x60), (0x80, 0xA0), (0x130, 0x130), (0x3A3, 0x3A3), (0x1680, 0x1680), (0x2000, 0x205F),
    (0x3000, 0x3000), (0xD800, 0xDFFF)]

/-- The images are code points, and none of them is reserved. -/
def wellPlaced (r : CaseRun) : Bool :=
  decide (0 ≤ r.first + r.shift) && decide (r.high < 0x110000) &&
    reserved.all fun b => r.high < b.1 || b.2 < r.low

theorem lowerRuns_wellPlaced : ∀ r ∈ lowerRuns, r.wellPlaced = true := by
  decide +kernel

theorem lowerRuns_apart : ∀ r ∈ lowerRuns, ∀ t ∈ lowerRuns, r.apart t = true := by
  have hall : (lowerRuns.all fun r => lowerRuns.all r.apart) = true := by decide +kernel
  simpa only [List.all_eq_true] using hall

theorem not_reserved (hr : r.wellPlaced = true) (h : r.image? n = some m) :
    m < 0x110000 ∧ ∀ b ∈ reserved, m < b.1 ∨ b.2 < m := by
  obtain ⟨⟨hfirst, hlast, -⟩, rfl⟩ := image?_eq_some_iff.mp h
  simp only [wellPlaced, Bool.and_eq_true, decide_eq_true_eq, List.all_eq_true,
    Bool.or_eq_true] at hr
  simp only [low, high] at hr
  obtain ⟨⟨hnonneg, hhigh⟩, hreserved⟩ := hr
  refine ⟨by omega, fun b hb => ?_⟩
  have hside := hreserved b hb
  omega

end CaseRun

namespace Chars

open CaseRun (lowerRuns_wellPlaced lowerRuns_apart not_reserved image?_eq_none_of_apart)

variable {c d : Char} {s before after : List Char}

/-- A character that lowering leaves alone, wherever it stands. -/
structure Settled (d : Char) : Prop where
  fixed : lowerChar d = [d]
  notSigma : d.toNat ≠ 0x3A3

/-- What a character is lowered to: something, settled, and no blank unless it is one. -/
structure Lowered (c : Char) (out : List Char) : Prop where
  nonempty : out ≠ []
  settled : ∀ d ∈ out, Settled d
  blank : isBlank c = false → ∀ d ∈ out, isBlank d = false

theorem lowered_singleton (hd : Settled d) (hblank : isBlank c = false → isBlank d = false) :
    Lowered c [d] where
  nonempty := List.cons_ne_nil d []
  settled := List.forall_mem_singleton.mpr hd
  blank hc := List.forall_mem_singleton.mpr (hblank hc)

theorem toNat_ofNat {n : Nat} (h : n.isValidChar) : (Char.ofNat n).toNat = n := by
  rw [Char.ofNat, dif_pos h]
  rfl

theorem lowered_ascii (h : c.toNat < 128) : Lowered c [c.toLower] := by
  have htable : ∀ n < 128, (Char.ofNat n).toLower.toNat < 128 ∧
      (Char.ofNat n).toLower.toLower = (Char.ofNat n).toLower ∧
      isBlank (Char.ofNat n).toLower = isBlank (Char.ofNat n) := by decide
  have hc := htable c.toNat h
  rw [Char.ofNat_toNat] at hc
  obtain ⟨hsmall, hfixed, hblank⟩ := hc
  have hsettled : Settled c.toLower := ⟨by rw [lowerChar, if_pos hsmall, hfixed], by omega⟩
  exact lowered_singleton hsettled fun hc => hblank.trans hc

theorem lowered_expansion : Lowered (Char.ofNat 0x130) (ofNats [0x69, 0x307]) where
  nonempty := by decide
  settled := by
    have hi : Settled (Char.ofNat 0x69) := ⟨by decide, by decide⟩
    have hdot : Settled (Char.ofNat 0x307) := ⟨by decide +kernel, by decide⟩
    simpa [ofNats] using ⟨hi, hdot⟩
  blank _ := by
    have hi : isBlank (Char.ofNat 0x69) = false := by decide
    have hdot : isBlank (Char.ofNat 0x307) = false := by decide
    simpa [ofNats] using ⟨hi, hdot⟩

theorem lookup_lowerExpansions {n : Nat} (h : n ≠ 0x130) : lowerExpansions.lookup n = none := by
  simp [lowerExpansions, List.lookup_eq_none_iff, h]

theorem lowerChar_of_unmoved (hascii : c.toNat < 128 → c.toLower = c) (hdotted : c.toNat ≠ 0x130)
    (hrun : ∀ t ∈ lowerRuns, t.image? c.toNat = none) : lowerChar c = [c] := by
  unfold lowerChar
  split
  · rename_i hsmall
    rw [hascii hsmall]
  · rw [caseImage, lookup_lowerExpansions hdotted, List.findSome?_eq_none_iff.mpr hrun]
    simp [ofNats]

theorem lowered_run {r : CaseRun} (hr : r ∈ lowerRuns) {n m : Nat} (h : r.image? n = some m)
    (c : Char) : Lowered c (ofNats [m]) := by
  have hplaced := lowerRuns_wellPlaced r hr
  obtain ⟨hcode, hreserved⟩ := not_reserved hplaced h
  simp only [CaseRun.reserved, List.forall_mem_cons, List.not_mem_nil, false_implies,
    implies_true, and_true] at hreserved
  have hvalid : m.isValidChar := by
    unfold Nat.isValidChar
    omega
  have hnat : (Char.ofNat m).toNat = m := toNat_ofNat hvalid
  have hascii : ∀ n < 128, 0x60 < n → (Char.ofNat n).toLower = Char.ofNat n := by decide
  have hfixed : lowerChar (Char.ofNat m) = [Char.ofNat m] := by
    refine lowerChar_of_unmoved ?_ (by omega) fun t ht => ?_
    · rw [hnat]
      exact fun hsmall => hascii m hsmall (by omega)
    · rw [hnat]
      have hnonneg : 0 ≤ r.first + r.shift := by
        simp only [CaseRun.wellPlaced, Bool.and_eq_true, decide_eq_true_eq] at hplaced
        exact hplaced.1.1
      exact image?_eq_none_of_apart hnonneg (lowerRuns_apart r hr t ht) h
  have hblank : isBlank (Char.ofNat m) = false := by
    simp only [isBlank, hnat, Bool.or_eq_false_iff, Bool.and_eq_false_iff, decide_eq_false_iff_not,
      beq_eq_false_iff_ne]
    omega
  exact lowered_singleton ⟨hfixed, by omega⟩ fun _ => hblank

theorem lowered_lowerChar (hc : c.toNat ≠ 0x3A3) : Lowered c (lowerChar c) := by
  by_cases hsmall : c.toNat < 128
  · rw [lowerChar, if_pos hsmall]
    exact lowered_ascii hsmall
  · by_cases hdotted : c.toNat = 0x130
    · obtain rfl : c = Char.ofNat 0x130 := by rw [← hdotted, Char.ofNat_toNat]
      exact lowered_expansion
    · cases hrun : lowerRuns.findSome? (·.image? c.toNat) with
      | some m =>
        obtain ⟨r, hr, himage⟩ := List.exists_of_findSome?_eq_some hrun
        rw [lowerChar, if_neg hsmall, caseImage, lookup_lowerExpansions hdotted, hrun]
        exact lowered_run hr himage c
      | none =>
        have hfixed : lowerChar c = [c] :=
          lowerChar_of_unmoved (fun h => absurd h hsmall) hdotted
            (List.findSome?_eq_none_iff.mp hrun)
        rw [hfixed]
        exact lowered_singleton ⟨hfixed, hc⟩ id

theorem lowered_lowerBetween (before : List Char) (c : Char) (after : List Char) :
    Lowered c (lowerBetween before c after) := by
  unfold lowerBetween
  split
  · have hfinal : Settled (Char.ofNat 0x3C2) := ⟨by decide +kernel, by decide⟩
    have hinner : Settled (Char.ofNat 0x3C3) := ⟨by decide +kernel, by decide⟩
    split
    · exact lowered_singleton hfinal fun _ => by decide
    · exact lowered_singleton hinner fun _ => by decide
  · rename_i hc
    exact lowered_lowerChar hc

theorem settled_of_mem_lowerFrom (h : d ∈ lowerFrom before s) : Settled d := by
  induction s generalizing before with
  | nil => cases h
  | cons c rest ih =>
    rcases List.mem_append.mp h with h | h
    · exact (lowered_lowerBetween before c rest).settled d h
    · exact ih h

theorem lowerFrom_of_settled (h : ∀ d ∈ s, Settled d) : lowerFrom before s = s := by
  induction s generalizing before with
  | nil => rfl
  | cons c rest ih =>
    obtain ⟨hc, hrest⟩ := List.forall_mem_cons.mp h
    rw [lowerFrom, lowerBetween, if_neg hc.notSigma, hc.fixed, ih hrest]
    rfl

theorem lower_lower (s : List Char) : lower (lower s) = lower s :=
  lowerFrom_of_settled fun _ => settled_of_mem_lowerFrom

theorem lowerFrom_eq_nil_iff : lowerFrom before s = [] ↔ s = [] := by
  cases s with
  | nil => exact iff_of_true rfl rfl
  | cons c rest =>
    have hnonempty := (lowered_lowerBetween before c rest).nonempty
    simp [lowerFrom, hnonempty]

/-- A text with no blank at either end. -/
structure Trimmed (s : List Char) : Prop where
  head : ∀ c ∈ s.head?, isBlank c = false
  last : ∀ c ∈ s.getLast?, isBlank c = false

theorem trim_eq_rdropWhile (s : List Char) : trim s = (s.dropWhile isBlank).rdropWhile isBlank := rfl

theorem trim_eq_nil_iff : trim s = [] ↔ allBlank s = true := by
  rw [trim_eq_rdropWhile, List.rdropWhile_eq_nil_iff, allBlank, List.all_eq_true]
  constructor
  · intro h c hc
    rw [← List.takeWhile_append_dropWhile (p := isBlank) (l := s), List.mem_append] at hc
    rcases hc with hc | hc
    · exact List.mem_takeWhile_imp hc
    · exact h c hc
  · intro h c hc
    exact h c ((List.dropWhile_suffix isBlank).subset hc)

theorem trimmed_trim (s : List Char) : Trimmed (trim s) := by
  rw [trim_eq_rdropWhile]
  refine ⟨fun c hc => ?_, fun c hc => ?_⟩
  · obtain ⟨rest, hrest⟩ := List.rdropWhile_prefix isBlank (s.dropWhile isBlank)
    have hhead : (s.dropWhile isBlank).head? = some c := by
      rw [← hrest, List.head?_append, Option.mem_def.mp hc]
      rfl
    have hleft := List.head?_dropWhile_not isBlank s
    rwa [hhead] at hleft
  · obtain ⟨hne, rfl⟩ := List.mem_getLast?_eq_getLast hc
    exact Bool.eq_false_iff.mpr (List.rdropWhile_last_not isBlank _ hne)

theorem Trimmed.trim_eq (h : Trimmed s) : trim s = s := by
  have hleft : s.dropWhile isBlank = s := by
    cases s with
    | nil => rfl
    | cons c rest => exact List.dropWhile_cons_of_neg (by rw [h.head c rfl]; decide)
  rw [trim_eq_rdropWhile, hleft, List.rdropWhile_eq_self_iff]
  intro hne
  rw [h.last _ (List.getLast?_eq_some_getLast hne)]
  decide

theorem head?_lowerFrom (h : ∀ c ∈ s.head?, isBlank c = false) :
    ∀ d ∈ (lowerFrom before s).head?, isBlank d = false := by
  cases s with
  | nil => exact h
  | cons c rest =>
    intro d hd
    have hlowered := lowered_lowerBetween before c rest
    rw [lowerFrom, List.head?_append_of_ne_nil _ hlowered.nonempty] at hd
    exact hlowered.blank (h c rfl) d (List.mem_of_head? hd)

theorem getLast?_lowerFrom (h : ∀ c ∈ s.getLast?, isBlank c = false) :
    ∀ d ∈ (lowerFrom before s).getLast?, isBlank d = false := by
  induction s generalizing before with
  | nil => exact h
  | cons c rest ih =>
    intro d hd
    rw [lowerFrom] at hd
    by_cases hrest : rest = []
    · rw [hrest, lowerFrom, List.append_nil] at hd
      rw [hrest] at h
      exact (lowered_lowerBetween before c []).blank (h c rfl) d (List.mem_of_getLast? hd)
    · have hne : lowerFrom (c :: before) rest ≠ [] := mt lowerFrom_eq_nil_iff.mp hrest
      rw [List.getLast?_append_of_ne_nil _ hne] at hd
      rw [List.getLast?_cons_of_ne_nil hrest] at h
      exact ih h d hd

theorem Trimmed.lower (h : Trimmed s) : Trimmed (lower s) :=
  ⟨head?_lowerFrom h.head, getLast?_lowerFrom h.last⟩

end Chars

/-- A text that was trimmed and lowered is its own trimmed lower case. -/
theorem lower_trim_lower_trim (s : String) : lower (trim (lower (trim s))) = lower (trim s) := by
  have htrimmed := (Chars.trimmed_trim s.toList).lower
  simp only [lower, trim, String.toList_ofList, htrimmed.trim_eq, Chars.lower_lower]

/-- Nothing is left of a text only where it is blank. -/
theorem lower_trim_eq_empty_iff (s : String) : lower (trim s) = "" ↔ allBlank s = true := by
  have hempty : lower (trim s) = "" ↔ Chars.lower (Chars.trim s.toList) = [] := by
    simp [lower, trim]
  rw [hempty, Chars.lower, Chars.lowerFrom_eq_nil_iff, Chars.trim_eq_nil_iff, allBlank]

end Inquiry.Text
