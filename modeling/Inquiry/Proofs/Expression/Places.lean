import Inquiry.Proofs.Expression.Tree

/-!
# Places in an expression

A node is told by its address; its path is the text that is shown for it. Paths are made of keys, and
keys may hold any character, so two nodes may have the same path but never the same address.
-/
namespace Inquiry.Expression

/-- The nodes right below a node, with their paths. -/
def children (path : String) : Expression → List (String × Expression)
  | .scalar _ => []
  | .fieldRef _ => []
  | .keyed es => es.map fun d => (joinPath path d.1, d.2)
  | .array xs => xs.mapIdx fun i x => (indexPath path i, x)

/-- What stands at an address below a node at `path`, and its path. -/
def place? (path : String) (e : Expression) : List Nat → Option (String × Expression)
  | [] => some (path, e)
  | i :: address => (e.children path)[i]?.bind fun c => place? c.1 c.2 address

/-- In post-order a node comes after its left neighbours and after all that is below it. -/
def PostBefore : List Nat → List Nat → Prop
  | _ :: _, [] => True
  | [], _ => False
  | i :: a, j :: b => i < j ∨ i = j ∧ PostBefore a b

@[simp] theorem place?_nil (path : String) (e : Expression) :
    e.place? path [] = some (path, e) := rfl

theorem place?_cons_eq_some_iff {path q : String} {e x : Expression} {i : Nat}
    {address : List Nat} : e.place? path (i :: address) = some (q, x) ↔
      ∃ c, (e.children path)[i]? = some c ∧ c.2.place? c.1 address = some (q, x) :=
  Option.bind_eq_some_iff

/-- What holds of a node as soon as it holds of the nodes right below it holds of all trees. -/
theorem children_induction {motive : Expression → Prop}
    (node : ∀ e, (∀ path, ∀ c ∈ e.children path, motive c.2) → motive e) (e : Expression) :
    motive e := by
  induction e with
  | scalar v => exact node _ fun _ _ hc => absurd hc List.not_mem_nil
  | fieldRef f => exact node _ fun _ _ hc => absurd hc List.not_mem_nil
  | keyed es ih =>
    refine node _ fun path c hc => ?_
    obtain ⟨d, hd, rfl⟩ := List.mem_map.mp hc
    exact ih d hd
  | array xs ih =>
    refine node _ fun path c hc => ?_
    obtain ⟨i, hi, rfl⟩ := List.mem_mapIdx.mp hc
    exact ih _ (List.getElem_mem hi)

section Addressed

variable {α β : Type}

/-- The results for the nodes below a node, each under the number of its node. -/
def addressed (below : α → List (List Nat × β)) (xs : List α) : List (List Nat × β) :=
  xs.zipIdx.flatMap fun x => (below x.1).map fun r => (x.2 :: r.1, r.2)

variable {below : α → List (List Nat × β)} {xs : List α}

theorem mem_addressed_iff {address : List Nat} {r : β} :
    (address, r) ∈ addressed below xs ↔
      ∃ i x a, address = i :: a ∧ xs[i]? = some x ∧ (a, r) ∈ below x := by
  simp only [addressed, List.mem_flatMap, List.mem_map, Prod.exists, Prod.mk.injEq,
    List.mem_zipIdx_iff_getElem?]
  constructor
  · rintro ⟨x, i, hx, a, s, hs, rfl, rfl⟩
    exact ⟨i, x, a, rfl, hx, hs⟩
  · rintro ⟨i, x, a, rfl, hx, hr⟩
    exact ⟨x, i, hx, a, r, hr, rfl, rfl⟩

theorem map_snd_addressed :
    (addressed below xs).map (·.2) = xs.flatMap fun x => (below x).map (·.2) := by
  have hxs : xs.flatMap (fun x => (below x).map (·.2)) =
      (xs.zipIdx.map Prod.fst).flatMap fun x => (below x).map (·.2) := by
    rw [List.zipIdx_map_fst]
  rw [hxs, addressed, List.map_flatMap, List.flatMap_map]
  simp only [List.map_map, Function.comp_def]

theorem pairwise_zipIdx (k : Nat) : (xs.zipIdx k).Pairwise fun x y => x.2 < y.2 := by
  induction xs generalizing k with
  | nil => exact .nil
  | cons x xs ih =>
    exact List.pairwise_cons.mpr ⟨fun _ hy => List.le_snd_of_mem_zipIdx hy, ih (k + 1)⟩

theorem pairwise_addressed
    (h : ∀ x ∈ xs, (below x).Pairwise fun r s => PostBefore r.1 s.1) :
    (addressed below xs).Pairwise fun r s => PostBefore r.1 s.1 := by
  rw [addressed, List.pairwise_flatMap]
  refine ⟨fun x hx => ?_, (pairwise_zipIdx 0).imp fun hlt r hr s hs => ?_⟩
  · rw [List.pairwise_map]
    exact (h x.1 (List.mem_of_getElem? (List.mem_zipIdx_iff_getElem?.mp hx))).imp
      fun hrs => Or.inr ⟨rfl, hrs⟩
  · obtain ⟨r, -, rfl⟩ := List.mem_map.mp hr
    obtain ⟨s, -, rfl⟩ := List.mem_map.mp hs
    exact Or.inl hlt

end Addressed

end Inquiry.Expression
