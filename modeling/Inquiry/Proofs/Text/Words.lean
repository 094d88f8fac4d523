import Inquiry.Proofs.Text.Lowering
import Inquiry.Text.Search

/-!
# Words

A text falls apart into words at its blanks. Texts that are joined by spaces fall apart one by one, so
that words which were joined are found again, and what is done to each character of a text is done to
the joined texts one by one.
-/
namespace Inquiry.Text.Chars

variable {s w word : List Char}

/-- What can be a word: something without a blank. -/
structure IsWord (w : List Char) : Prop where
  nonempty : w ≠ []
  solid : ∀ c ∈ w, isBlank c = false

theorem wordsFrom_append_space (word s t : List Char) :
    wordsFrom word (s ++ ' ' :: t) = wordsFrom word s ++ words t := by
  induction s generalizing word with
  | nil => exact if_pos isBlank_space
  | cons c s ih =>
    rw [List.cons_append, wordsFrom, wordsFrom]
    split
    · rw [ih, List.append_assoc]
    · exact ih _

theorem words_append_space (s t : List Char) : words (s ++ ' ' :: t) = words s ++ words t :=
  wordsFrom_append_space [] s t

theorem words_space (t : List Char) : words (' ' :: t) = words t := words_append_space [] t

theorem wordsFrom_of_solid (h : ∀ c ∈ s, isBlank c = false) :
    wordsFrom word s = if (word ++ s).isEmpty then [] else [word ++ s] := by
  induction s generalizing word with
  | nil => rw [List.append_nil, wordsFrom]
  | cons c s ih =>
    obtain ⟨hc, hs⟩ := List.forall_mem_cons.mp h
    rw [wordsFrom, hc, if_neg Bool.false_ne_true, ih hs, List.append_assoc, List.singleton_append]

theorem IsWord.words_eq (h : IsWord w) : words w = [w] := by
  have hw : w.isEmpty = false := List.isEmpty_eq_false_iff.mpr h.nonempty
  rw [words, wordsFrom_of_solid h.solid, List.nil_append, hw, if_neg Bool.false_ne_true]

/-- At a blank, the word that was read is told if there is one. -/
theorem mem_told_iff : (w ∈ if word.isEmpty then [] else [word]) ↔ w = word ∧ word ≠ [] := by
  cases word with
  | nil => simp
  | cons c word => simp

theorem isWord_of_mem_wordsFrom (hword : ∀ c ∈ word, isBlank c = false)
    (h : w ∈ wordsFrom word s) : IsWord w := by
  induction s generalizing word with
  | nil =>
    obtain ⟨rfl, hne⟩ := mem_told_iff.mp h
    exact ⟨hne, hword⟩
  | cons c s ih =>
    rw [wordsFrom] at h
    split at h
    · rcases List.mem_append.mp h with htold | hlater
      · obtain ⟨rfl, hne⟩ := mem_told_iff.mp htold
        exact ⟨hne, hword⟩
      · exact ih (by simp) hlater
    · rename_i hc
      have hlonger : ∀ d ∈ word ++ [c], isBlank d = false :=
        List.forall_mem_append.mpr ⟨hword, List.forall_mem_singleton.mpr (by simpa using hc)⟩
      exact ih hlonger h

theorem isWord_of_mem_words (h : w ∈ words s) : IsWord w :=
  isWord_of_mem_wordsFrom (by simp) h

theorem subset_of_mem_wordsFrom (h : w ∈ wordsFrom word s) : w ⊆ word ++ s := by
  induction s generalizing word with
  | nil =>
    obtain ⟨rfl, -⟩ := mem_told_iff.mp h
    exact List.subset_append_left _ _
  | cons c s ih =>
    rw [wordsFrom] at h
    split at h
    · rcases List.mem_append.mp h with htold | hlater
      · obtain ⟨rfl, -⟩ := mem_told_iff.mp htold
        exact List.subset_append_left _ _
      · exact List.Subset.trans (ih hlater)
          (List.subset_append_of_subset_right _ (List.subset_cons_self c s))
    · have hrest := ih h
      rwa [List.append_assoc, List.singleton_append] at hrest

theorem subset_of_mem_words (h : w ∈ words s) : w ⊆ s := subset_of_mem_wordsFrom h

variable (ps : List (List Char))

theorem joinWith_cons (sep p q : List Char) :
    joinWith sep (p :: q :: ps) = p ++ sep ++ joinWith sep (q :: ps) := rfl

theorem joinWith_ne_nil (sep : List Char) {p : List Char} (h : p ≠ []) :
    joinWith sep (p :: ps) ≠ [] := by
  cases ps with
  | nil => exact h
  | cons q ps =>
    rw [joinWith_cons, List.append_assoc]
    exact List.append_ne_nil_of_left_ne_nil h _

theorem IsWord.trimmed (h : IsWord w) : Trimmed w :=
  ⟨fun c hc => h.solid c (List.mem_of_mem_head? hc),
    fun c hc => h.solid c (List.mem_of_mem_getLast? hc)⟩

variable {ps} in
theorem trimmed_joinWith (h : ∀ p ∈ ps, IsWord p) : Trimmed (joinWith [' '] ps) := by
  induction ps with
  | nil => exact ⟨by simp [joinWith], by simp [joinWith]⟩
  | cons p ps ih =>
    obtain ⟨hp, hps⟩ := List.forall_mem_cons.mp h
    cases ps with
    | nil => exact hp.trimmed
    | cons q ps =>
      have hne : joinWith [' '] (q :: ps) ≠ [] :=
        joinWith_ne_nil ps [' '] (hps q List.mem_cons_self).nonempty
      rw [joinWith_cons]
      constructor
      · rw [List.append_assoc, List.head?_append_of_ne_nil _ hp.nonempty]
        exact hp.trimmed.head
      · rw [List.getLast?_append_of_ne_nil _ hne]
        exact (ih hps).last

theorem words_joinWith : words (joinWith [' '] ps) = ps.flatMap words := by
  induction ps with
  | nil => rfl
  | cons p ps ih =>
    cases ps with
    | nil => rw [joinWith, List.flatMap_singleton]
    | cons q ps =>
      rw [joinWith_cons, List.append_assoc, List.singleton_append, words_append_space, ih]
      exact List.flatMap_cons.symm

theorem flatMap_joinWith (f : Char → List Char) (sep : List Char) :
    (joinWith sep ps).flatMap f = joinWith (sep.flatMap f) (ps.map (·.flatMap f)) := by
  induction ps with
  | nil => rfl
  | cons p ps ih =>
    cases ps with
    | nil => rfl
    | cons q ps =>
      rw [joinWith_cons, List.flatMap_append, List.flatMap_append, ih]
      rfl

theorem replaceChar_joinWith (old new : Char) (sep : List Char) :
    replaceChar old new (joinWith sep ps) =
      joinWith (replaceChar old new sep) (ps.map (replaceChar old new)) := by
  have hflat : replaceChar old new = List.flatMap fun c => [if c = old then new else c] :=
    funext fun s => List.map_eq_flatMap
  rw [hflat]
  exact flatMap_joinWith ps _ sep

end Inquiry.Text.Chars
