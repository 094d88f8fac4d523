import Inquiry.Value.Order
import Mathlib.Data.List.Sort
import Mathlib.Data.String.Basic

/-!
# Sorted texts

Texts always have an order, so sorting them never fails. A sort looks for the place of each text by
halving, and leaves what is before that place no greater and what is behind it greater; so the texts
come out in ascending order, however often they occur.
-/
namespace Inquiry.Value

theorem less_str (s t : String) : less (.str s) (.str t) = .ok (decide (s < t)) := rfl

variable {s : String} {ts : List String}

/-- The texts before `low` are no greater than `s`, and those from `high` on are greater. -/
structure Parts (s : String) (ts : List String) (low high : Nat) : Prop where
  below : ∀ i t, ts[i]? = some t → i < low → t ≤ s
  above : ∀ i t, ts[i]? = some t → high ≤ i → s < t

theorem le_of_sorted (hts : ts.Pairwise (· ≤ ·)) {i j : Nat} {t u : String} (hij : i ≤ j)
    (hi : ts[i]? = some t) (hj : ts[j]? = some u) : t ≤ u := by
  rcases Nat.lt_or_eq_of_le hij with hlt | rfl
  · obtain ⟨hi', rfl⟩ := List.getElem?_eq_some_iff.mp hi
    obtain ⟨hj', rfl⟩ := List.getElem?_eq_some_iff.mp hj
    exact List.pairwise_iff_getElem.mp hts i j hi' hj' hlt
  · rw [hi] at hj
    exact le_of_eq (Option.some.inj hj)

/-- The search narrows the gap between the texts that are no greater and those that are. -/
theorem insertionPoint_parts (hts : ts.Pairwise (· ≤ ·)) (s : String) (fuel low high : Nat)
    (hfuel : high - low ≤ fuel) (hle : low ≤ high) (hhigh : high ≤ ts.length)
    (hparts : Parts s ts low high) :
    ∃ n, insertionPoint (.str s) (ts.map .str) fuel low high = .ok n ∧ Parts s ts n n := by
  induction fuel generalizing low high with
  | zero =>
    obtain rfl : low = high := by omega
    exact ⟨low, rfl, hparts⟩
  | succ fuel ih =>
    rw [insertionPoint]
    by_cases hdone : high ≤ low
    · obtain rfl : low = high := by omega
      exact ⟨low, by rw [if_pos (Nat.le_refl low)], hparts⟩
    · rw [if_neg hdone]
      dsimp only
      generalize hmiddle : low + (high - low) / 2 = middle
      have hlow : low ≤ middle := by omega
      have hlt : middle < high := by omega
      have hget : ts[middle]? = some ts[middle] := List.getElem?_eq_getElem (by omega)
      rw [List.getElem?_map, hget, Option.map_some]
      dsimp only
      rw [less_str]
      by_cases hless : s < ts[middle]
      · rw [decide_eq_true hless]
        refine ih low middle (by omega) hlow (by omega) ⟨hparts.below, fun i t ht hi => ?_⟩
        exact lt_of_lt_of_le hless (le_of_sorted hts hi hget ht)
      · rw [decide_eq_false hless]
        refine ih (middle + 1) high (by omega) (by omega) hhigh ⟨fun i t ht hi => ?_, hparts.above⟩
        exact (le_of_sorted hts (by omega) ht hget).trans (not_lt.mp hless)

theorem insertAll_str (hts : ts.Pairwise (· ≤ ·)) (vs : List String) :
    ∃ us : List String, insertAll (ts.map .str) (vs.map .str) = .ok (us.map .str) ∧
      us.Perm (ts ++ vs) ∧ us.Pairwise (· ≤ ·) := by
  induction vs generalizing ts with
  | nil => exact ⟨ts, rfl, by rw [List.append_nil], hts⟩
  | cons s vs ih =>
    have hnone : Parts s ts 0 ts.length := by
      refine ⟨fun i t _ hi => absurd hi (Nat.not_lt_zero i), fun i t ht hi => ?_⟩
      rw [List.getElem?_eq_none hi] at ht
      cases ht
    obtain ⟨n, hn, hparts⟩ := insertionPoint_parts hts s (ts.length + 1) 0 ts.length (by omega)
      (by omega) (Nat.le_refl _) hnone
    have hinserted : (ts.take n ++ s :: ts.drop n).Pairwise (· ≤ ·) := by
      refine List.pairwise_append.mpr ⟨hts.take, List.pairwise_cons.mpr ⟨fun t ht => ?_, hts.drop⟩,
        fun t ht u hu => ?_⟩
      · obtain ⟨i, hi⟩ := List.mem_iff_getElem?.mp ht
        rw [List.getElem?_drop] at hi
        exact (hparts.above (n + i) t hi (Nat.le_add_right n i)).le
      · have hbefore : t ≤ s := by
          obtain ⟨i, hi⟩ := List.mem_iff_getElem?.mp ht
          rw [List.getElem?_take] at hi
          split at hi
          · exact hparts.below i t hi ‹_›
          · cases hi
        rcases List.mem_cons.mp hu with rfl | hu
        · exact hbefore
        · obtain ⟨i, hi⟩ := List.mem_iff_getElem?.mp hu
          rw [List.getElem?_drop] at hi
          exact hbefore.trans (hparts.above (n + i) u hi (Nat.le_add_right n i)).le
    obtain ⟨us, hus, hperm, hsorted⟩ := ih hinserted
    refine ⟨us, ?_, ?_, hsorted⟩
    · rw [List.map_cons, insertAll, List.length_map, hn]
      dsimp only
      rw [← List.map_take, ← List.map_drop, ← List.map_cons, ← List.map_append, hus]
    · have hcut : (ts.take n ++ s :: ts.drop n).Perm (s :: ts) := by
        have hmiddle : (ts.take n ++ s :: ts.drop n).Perm (s :: (ts.take n ++ ts.drop n)) :=
          List.perm_middle
        rwa [List.take_append_drop] at hmiddle
      exact hperm.trans ((hcut.append_right vs).trans List.perm_middle.symm)

/-- The texts at the start of a sort go on in one direction, and what is left comes after them. -/
theorem run_str (descending : Bool) (last : String) (vs : List String) :
    ∃ more left : List String,
      run descending (.str last) (vs.map .str) = .ok (more.map .str, left.map .str) ∧
      more ++ left = vs ∧ (last :: more).IsChain fun t u => decide (u < t) = descending := by
  induction vs generalizing last with
  | nil => exact ⟨[], [], rfl, rfl, .singleton last⟩
  | cons v vs ih =>
    rw [List.map_cons, run, less_str]
    dsimp only
    by_cases hgoes : decide (v < last) = descending
    · obtain ⟨more, left, hrun, rfl, hchain⟩ := ih v
      refine ⟨v :: more, left, ?_, rfl, List.isChain_cons_cons.mpr ⟨hgoes, hchain⟩⟩
      rw [if_pos hgoes, hrun]
      rfl
    · exact ⟨[], v :: vs, by rw [if_neg hgoes]; rfl, rfl, .singleton last⟩

/-- The run that a sort begins with is ascending, once a descending one is turned round. -/
theorem start_pairwise {descending : Bool} {start : List String}
    (h : start.IsChain fun t u => decide (u < t) = descending) :
    (if descending then start.reverse else start).Pairwise (· ≤ ·) := by
  cases descending with
  | false =>
    have hchain : start.IsChain (· ≤ ·) := h.imp fun t u htu => not_lt.mp (of_decide_eq_false htu)
    exact List.isChain_iff_pairwise.mp hchain
  | true =>
    have hchain : start.IsChain (· > ·) := h.imp fun t u htu => of_decide_eq_true htu
    have hpairwise := List.isChain_iff_pairwise.mp hchain
    exact (List.pairwise_reverse.mpr hpairwise).imp fun htu => le_of_lt htu

theorem sorted_str (ss : List String) :
    ∃ us : List String, sorted (ss.map .str) = .ok (us.map .str) ∧ us.Perm ss ∧
      us.Pairwise (· ≤ ·) := by
  match ss with
  | [] => exact ⟨[], rfl, List.Perm.refl _, List.Pairwise.nil⟩
  | [s] => exact ⟨[s], rfl, List.Perm.refl _, List.pairwise_singleton _ s⟩
  | a :: b :: rest =>
    obtain ⟨more, left, hrun, rfl, hchain⟩ := run_str (decide (b < a)) b rest
    have hstart := start_pairwise (List.isChain_cons_cons.mpr ⟨rfl, hchain⟩)
    obtain ⟨us, hus, hperm, hsorted⟩ := insertAll_str hstart left
    refine ⟨us, ?_, hperm.trans ?_, hsorted⟩
    · have hturned (descending : Bool) (start : List String) :
          (if descending then (start.map str).reverse else start.map str) =
            (if descending then start.reverse else start).map str := by
        cases descending with
        | false => rfl
        | true => exact List.map_reverse.symm
      rw [List.map_cons, List.map_cons, sorted, less_str]
      change Except.bind (run (decide (b < a)) (str b) _) _ = _
      rw [hrun]
      change insertAll (if decide (b < a) = true then (List.map str (a :: b :: more)).reverse
        else List.map str (a :: b :: more)) (List.map str left) = _
      rw [hturned, hus]
    · have hwhole : (if decide (b < a) then (a :: b :: more).reverse
          else a :: b :: more).Perm (a :: b :: more) := by
        split
        · exact List.reverse_perm _
        · exact List.Perm.refl _
      exact hwhole.append_right left

/-- Sorting texts gives them in ascending order. -/
theorem sorted_map_str (ss : List String) :
    sorted (ss.map .str) = .ok ((ss.mergeSort (· ≤ ·)).map .str) := by
  obtain ⟨us, hus, hperm, hsorted⟩ := sorted_str ss
  have heq : us = ss.mergeSort (· ≤ ·) :=
    (hperm.trans (List.mergeSort_perm _ _).symm).eq_of_pairwise' hsorted
      (List.pairwise_mergeSort' (· ≤ ·) ss)
  rw [hus, heq]

/-- Texts that are left out before a sort might as well be left out after it. -/
theorem mergeSort_filter (p : String → Bool) (ss : List String) :
    (ss.filter p).mergeSort (· ≤ ·) = (ss.mergeSort (· ≤ ·)).filter p := by
  have hperm : ((ss.filter p).mergeSort (· ≤ ·)).Perm ((ss.mergeSort (· ≤ ·)).filter p) :=
    (List.mergeSort_perm _ _).trans ((List.mergeSort_perm _ _).filter p).symm
  exact hperm.eq_of_pairwise' (List.pairwise_mergeSort' (· ≤ ·) (ss.filter p))
    ((List.pairwise_mergeSort' (· ≤ ·) ss).filter p)

end Inquiry.Value
