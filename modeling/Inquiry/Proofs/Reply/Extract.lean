import Inquiry.Proofs.Reply.Balanced
import Inquiry.Reply.Extract
import Mathlib.Data.List.Infix

/-!
# The object of a reply

What a model writes around an object does not change it: prose before and after it, and a fence around
it. Between the braces two things do: a fence in the text of the object cuts it off, and a shell
literal is replaced wherever it stands, inside string literals too. The text of an object without these
two is found whole, and read as the object that was written.
-/
namespace Inquiry.Reply

open Json (dump Plain)
open Text (isBlank)
open Text.Chars (dropPrefix? cutAt? dropBlank trim allBlank)

theorem dropBlank_append_cons (before : List Char) {c : Char} (hc : isBlank c = false)
    (rest : List Char) : dropBlank (before ++ c :: rest) = dropBlank before ++ c :: rest := by
  rw [dropBlank, List.dropWhile_append, List.dropWhile_cons_of_neg (by rw [hc]; decide)]
  split
  · next hempty => rw [dropBlank, List.isEmpty_iff.mp hempty, List.nil_append]
  · rfl

/-- Trimming takes blanks away from what surrounds a text without blanks at its ends. -/
theorem exists_trim_surrounded {text : List Char} (hfirst : ∃ c t, text = c :: t ∧ isBlank c = false)
    (hlast : ∃ t d, text = t ++ [d] ∧ isBlank d = false) (before after : List Char) :
    ∃ b a, b <:+ before ∧ a <+: after ∧ trim (before ++ (text ++ after)) = b ++ (text ++ a) := by
  refine ⟨dropBlank before, (dropBlank after.reverse).reverse, List.dropWhile_suffix _, ?_, ?_⟩
  · rw [← List.reverse_suffix, List.reverse_reverse]
    exact List.dropWhile_suffix _
  · have hleft : dropBlank (before ++ (text ++ after)) = dropBlank before ++ (text ++ after) := by
      obtain ⟨c, t, rfl, hc⟩ := hfirst
      exact dropBlank_append_cons before hc (t ++ after)
    have hright : dropBlank (after.reverse ++ (text.reverse ++ (dropBlank before).reverse)) =
        dropBlank after.reverse ++ (text.reverse ++ (dropBlank before).reverse) := by
      obtain ⟨t, d, rfl, hd⟩ := hlast
      rw [List.reverse_concat]
      exact dropBlank_append_cons after.reverse hd (t.reverse ++ (dropBlank before).reverse)
    rw [trim, hleft, List.reverse_append, List.reverse_append, List.append_assoc, hright]
    simp only [List.reverse_append, List.reverse_reverse, List.append_assoc]

theorem dropPrefix?_eq_some {part s rest : List Char} :
    dropPrefix? part s = some rest ↔ part ++ rest = s := by
  induction part generalizing s with
  | nil => simp [dropPrefix?, eq_comm]
  | cons p ps ih =>
    cases s with
    | nil => simp [dropPrefix?]
    | cons c cs =>
      rw [dropPrefix?]
      split_ifs with h
      · rw [ih, h, List.cons_append, List.cons.injEq, and_iff_right rfl]
      · simp [h]

/-- Text over which the search for a fence passes, whatever follows it. -/
def Unfenced (t : List Char) : Prop :=
  ∀ rest : List Char, cutAt? fence (t ++ rest) = (cutAt? fence rest).map (Prod.map (t ++ ·) id)

theorem cutAt?_fence_cons {s : List Char} (c : Char) (h : dropPrefix? fence (c :: s) = none) :
    cutAt? fence (c :: s) = (cutAt? fence s).map (Prod.map (c :: ·) id) := by
  rw [cutAt?, h]
  rfl

theorem cutAt?_fence (rest : List Char) : cutAt? fence (fence ++ rest) = some ([], rest) := rfl

theorem cutAt?_eq_none {s : List Char} (h : ¬ fence <:+: s) : cutAt? fence s = none := by
  induction s with
  | nil => rfl
  | cons c s ih =>
    have hstart : dropPrefix? fence (c :: s) = none := by
      refine Option.eq_none_iff_forall_ne_some.mpr fun rest hrest => h ?_
      exact (dropPrefix?_eq_some.mp hrest ▸ List.prefix_append fence rest).isInfix
    rw [cutAt?_fence_cons c hstart, ih fun hs => h (hs.trans (List.infix_cons List.infix_rfl))]
    rfl

/-- A fence that starts in a text without one does not go on over another character. -/
theorem dropPrefix?_fence_eq_none {s : List Char} {c : Char} (hs : ¬ fence <:+: s) (hc : c ≠ '`')
    (rest : List Char) : dropPrefix? fence (s ++ c :: rest) = none := by
  refine Option.eq_none_iff_forall_ne_some.mpr fun after h => ?_
  rcases List.append_eq_append_iff.mp (dropPrefix?_eq_some.mp h) with
    ⟨more, hmore, -⟩ | ⟨more, hfence, hrest⟩
  · exact hs (hmore ▸ (List.prefix_append fence more).isInfix)
  · cases more with
    | nil => exact hs (hfence ▸ (List.append_nil s).symm ▸ List.infix_rfl)
    | cons d more =>
      have hd : d ∈ fence := hfence ▸ List.mem_append_right s List.mem_cons_self
      rw [(List.cons.inj hrest).1] at hc
      simp only [fence, List.mem_cons, List.not_mem_nil, or_false, or_self] at hd
      exact hc hd

namespace Unfenced

theorem append {s t : List Char} (hs : Unfenced s) (ht : Unfenced t) : Unfenced (s ++ t) := by
  intro rest
  rw [List.append_assoc, hs, ht, Option.map_map]
  congr 1
  funext r
  exact Prod.ext (List.append_assoc s t r.1).symm rfl

theorem concat {s : List Char} {c : Char} (hs : ¬ fence <:+: s) (hc : c ≠ '`') :
    Unfenced (s ++ [c]) := by
  intro rest
  induction s with
  | nil => exact cutAt?_fence_cons c (dropPrefix?_fence_eq_none hs hc rest)
  | cons d s ih =>
    have hstart : dropPrefix? fence (d :: (s ++ [c] ++ rest)) = none := by
      have h := dropPrefix?_fence_eq_none hs hc rest
      rwa [List.cons_append, List.append_cons] at h
    have hs' : ¬ fence <:+: s := fun h => hs (h.trans (List.infix_cons List.infix_rfl))
    rw [List.cons_append, List.cons_append, cutAt?_fence_cons d hstart, ih hs', Option.map_map]
    rfl

theorem of_forall {t : List Char} (h : ∀ c ∈ t, c ≠ '`') : Unfenced t := by
  induction t with
  | nil =>
    intro rest
    exact (congrFun Option.map_id (cutAt? fence rest)).symm
  | cons c t ih =>
    have hnil : ¬ fence <:+: [] := by decide
    exact (concat hnil (h c List.mem_cons_self)).append (ih fun d hd => h d (List.mem_cons_of_mem c hd))

theorem blank {gap : List Char} (h : allBlank gap = true) : Unfenced gap := by
  refine of_forall fun c hc => ?_
  rintro rfl
  exact absurd (List.all_eq_true.mp h _ hc) (by decide)

theorem cut {s : List Char} (h : Unfenced s) (rest : List Char) :
    cutAt? fence (s ++ (fence ++ rest)) = some (s, rest) := by
  rw [h, cutAt?_fence, Option.map_some, Prod.map_apply, List.append_nil, id]

end Unfenced

theorem short_of_fence_eq {s more : List Char} (hs : ¬ fence <:+: s) (h : fence = s ++ more) :
    s = [] ∨ s = ['`'] ∨ s = ['`', '`'] := by
  have hinits : s ∈ fence.inits := (List.mem_inits s fence).mpr ⟨more, h.symm⟩
  change s ∈ [[], ['`'], ['`', '`'], fence] at hinits
  simp only [List.mem_cons, List.not_mem_nil, or_false] at hinits
  rcases hinits with h | h | h | rfl
  · exact .inl h
  · exact .inr (.inl h)
  · exact .inr (.inr h)
  · exact absurd List.infix_rfl hs

/-- The first fence is cut where it starts, up to what the text before it ends in. -/
theorem exists_cutAt?_fence {before : List Char} (h : ¬ fence <:+: before) (rest : List Char) :
    ∃ b w, b ++ w = before ∧ cutAt? fence (before ++ (fence ++ rest)) = some (b, w ++ rest) := by
  induction before with
  | nil => exact ⟨[], [], rfl, cutAt?_fence rest⟩
  | cons c s ih =>
    cases hstart : dropPrefix? fence (c :: s ++ (fence ++ rest)) with
    | none =>
      obtain ⟨b, w, hbefore, hcut⟩ := ih fun hs => h (hs.trans (List.infix_cons List.infix_rfl))
      refine ⟨c :: b, w, by rw [List.cons_append, hbefore], ?_⟩
      have hnext : cutAt? fence (c :: (s ++ (fence ++ rest))) = _ := cutAt?_fence_cons c hstart
      rw [List.cons_append, hnext, hcut]
      rfl
    | some after =>
      refine ⟨[], c :: s, rfl, ?_⟩
      obtain ⟨more, hmore⟩ : ∃ more, fence = c :: s ++ more := by
        rcases List.append_eq_append_iff.mp (dropPrefix?_eq_some.mp hstart) with
          ⟨more, hmore, -⟩ | ⟨more, hmore, -⟩
        · exact absurd (hmore ▸ (List.prefix_append fence more).isInfix) h
        · exact ⟨more, hmore⟩
      rcases short_of_fence_eq h hmore with hnil | hone | htwo
      · cases hnil
      · rw [hone]
        rfl
      · rw [htwo]
        rfl

theorem candidateText_of_cut {text block before after rest : List Char}
    (hfirst : cutAt? fence text = some (before, rest)) (hsecond : cutAt? fence rest = some (block, after))
    (hopen : '\x7b' ∈ block) : candidateText text = block := by
  have hcontains : block.contains '\x7b' = true := List.contains_iff_mem.mpr hopen
  rw [candidateText, hfirst, Option.bind_some]
  dsimp only
  rw [hsecond]
  exact if_pos hcontains

theorem candidateText_of_none {text : List Char} (h : cutAt? fence text = none) :
    candidateText text = text := by
  rw [candidateText, h]
  rfl

/-- A text in a fence that is marked as JSON. -/
def fenced (gap text gap' : List Char) : List Char :=
  fence ++ ("json".toList ++ gap ++ text ++ gap') ++ fence

theorem Unfenced.label {w gap : List Char} (hw : ¬ fence <:+: w) (hgap : allBlank gap = true) :
    Unfenced (w ++ "json".toList ++ gap) := by
  have hname : Unfenced "son".toList := .of_forall (by simp)
  have hlabel : w ++ "json".toList = w ++ ['j'] ++ "son".toList :=
    (List.append_assoc w ['j'] "son".toList).symm
  rw [hlabel]
  exact ((concat hw (by decide)).append hname).append (blank hgap)

theorem not_mem_label {w gap : List Char} (hw : '\x7b' ∉ w) (hgap : allBlank gap = true) :
    '\x7b' ∉ w ++ "json".toList ++ gap := by
  simp only [List.mem_append, not_or]
  refine ⟨⟨hw, by simp⟩, fun hmem => ?_⟩
  exact absurd (List.all_eq_true.mp hgap _ hmem) (by decide)

section Object

variable {room : Nat} {fields : List (String × Value)} (h : Plain room (Value.doc fields))
  (hfence : ¬ fence <:+: dump (Value.doc fields)) {before after : List Char}
  (hopen : '\x7b' ∉ before) (hbefore : ¬ fence <:+: before)
include h hfence hopen hbefore

omit hopen hbefore in
theorem exists_unfenced_dump : ∃ t, dump (Value.doc fields) = '\x7b' :: (t ++ ['\x7d']) ∧
    Unfenced (t ++ ['\x7d']) := by
  obtain ⟨t, -, hdump⟩ := exists_passed_of_plain h
  refine ⟨t, hdump, .concat (fun hpart => hfence (hpart.trans ?_)) (by decide)⟩
  rw [hdump]
  exact List.infix_cons (List.prefix_append t _).isInfix

omit hopen hbefore in
theorem unfenced_dump : Unfenced (dump (Value.doc fields)) := by
  obtain ⟨t, hdump, ht⟩ := exists_unfenced_dump h hfence
  have hbrace : Unfenced ['\x7b'] := .of_forall (by simp)
  rw [hdump]
  exact hbrace.append ht

/-- Prose around an object does not change its text. -/
theorem objectText?_prose (hafter : ¬ fence <:+: after) :
    objectText? (before ++ (dump (Value.doc fields) ++ after)) =
      some (normalizeLiterals (dump (Value.doc fields))) := by
  obtain ⟨t, hdump, ht⟩ := exists_unfenced_dump h hfence
  obtain ⟨b, a, hb, ha, htrim⟩ := exists_trim_surrounded ⟨_, _, hdump, by decide⟩
    ⟨'\x7b' :: t, _, hdump, by decide⟩ before after
  have hcut : cutAt? fence (b ++ (dump (Value.doc fields) ++ a)) = none := by
    have hstart : Unfenced (b ++ ['\x7b']) :=
      .concat (fun hpart => hbefore (hpart.trans hb.isInfix)) (by decide)
    have hrest : cutAt? fence a = none :=
      cutAt?_eq_none fun hpart => hafter (hpart.trans ha.isInfix)
    rw [hdump, List.cons_append, List.append_cons, hstart, ht, hrest]
    rfl
  rw [objectText?, htrim, candidateText_of_none hcut,
    findBalanced?_dump h (fun hmem => hopen (hb.subset hmem)), Option.map_some]

/-- Nor does a fence around it, with prose around that. -/
theorem objectText?_fenced {gap gap' : List Char} (hgap : allBlank gap = true)
    (hgap' : allBlank gap' = true) :
    objectText? (before ++ (fenced gap (dump (Value.doc fields)) gap' ++ after)) =
      some (normalizeLiterals (dump (Value.doc fields))) := by
  have hfirst : ∃ c s, fenced gap (dump (Value.doc fields)) gap' = c :: s ∧ isBlank c = false :=
    ⟨_, _, rfl, by decide⟩
  have hlast : ∃ s d, fenced gap (dump (Value.doc fields)) gap' = s ++ [d] ∧ isBlank d = false :=
    ⟨_, _, (List.append_assoc _ ['`', '`'] ['`']).symm, by decide⟩
  obtain ⟨b, a, hb, -, htrim⟩ := exists_trim_surrounded hfirst hlast before after
  obtain ⟨b', w, rfl, hcut⟩ := exists_cutAt?_fence
    (fun hpart => hbefore (hpart.trans hb.isInfix))
    ("json".toList ++ gap ++ dump (Value.doc fields) ++ gap' ++ (fence ++ a))
  -- What the text before the fence ends in stands at the start of the block.
  have hw : w <:+ before := (List.suffix_append b' w).trans hb
  have hlabel : Unfenced (w ++ "json".toList ++ gap) :=
    .label (fun hpart => hbefore (hpart.trans hw.isInfix)) hgap
  have hblock : Unfenced (w ++ "json".toList ++ gap ++ (dump (Value.doc fields) ++ gap')) :=
    hlabel.append ((unfenced_dump h hfence).append (.blank hgap'))
  have hmem : '\x7b' ∈ w ++ "json".toList ++ gap ++ (dump (Value.doc fields) ++ gap') :=
    List.mem_append_right _ (List.mem_append_left gap' List.mem_cons_self)
  have hrest : cutAt? fence (b' ++ w ++ (fenced gap (dump (Value.doc fields)) gap' ++ a)) =
      some (b', w ++ "json".toList ++ gap ++ (dump (Value.doc fields) ++ gap') ++ (fence ++ a)) := by
    simpa only [fenced, List.append_assoc] using hcut
  rw [objectText?, htrim, candidateText_of_cut hrest (hblock.cut a) hmem,
    findBalanced?_dump h (not_mem_label (fun hmem => hopen (hw.subset hmem)) hgap), Option.map_some]

end Object

/-- Whether no shell literal stands anywhere in a text. -/
def LiteralFree (t : List Char) : Prop := ∀ m ∈ literals, ∀ s ∈ t.tails, m s = none

theorem substitute_eq_self {m : Matcher} {t : List Char} (h : ∀ s ∈ t.tails, m s = none) :
    substitute m 0 t = t := by
  induction t with
  | nil => rfl
  | cons c t ih =>
    rw [List.tails_cons, List.forall_mem_cons] at h
    rw [substitute, h.1]
    exact congrArg (c :: ·) (ih h.2)

theorem normalizeLiterals_eq_self {t : List Char} (h : LiteralFree t) : normalizeLiterals t = t :=
  List.foldlRecOn (motive := fun s => s = t) literals _ rfl fun s hs m hm => by
    rw [hs, substitute_eq_self (h m hm)]

instance (t : List Char) : Decidable (LiteralFree t) :=
  inferInstanceAs (Decidable (∀ m ∈ literals, ∀ s ∈ t.tails, m s = none))

theorem extract_of_objectText? {reply : List Char} {v : Value} (hopen : '\x7b' ∈ reply)
    (htext : objectText? reply = some (dump v)) (hv : Plain Json.maxDepth v) :
    extract (.str (String.ofList reply)) = .ok v := by
  have hblank : allBlank reply = false := by
    refine Bool.eq_false_iff.mpr fun hblank => ?_
    exact absurd (List.all_eq_true.mp hblank _ hopen) (by decide)
  rw [extract, String.toList_ofList, hblank, if_neg Bool.false_ne_true, htext]
  dsimp only
  rw [Json.parse_dump hv]

/-- An object is read from its text in prose and in a fence, if neither a fence nor a shell literal
stands in it. -/
theorem extract_dump {fields : List (String × Value)} (h : Plain Json.maxDepth (Value.doc fields))
    (hfence : ¬ fence <:+: dump (Value.doc fields)) (hliteral : LiteralFree (dump (Value.doc fields)))
    {before after gap gap' : List Char} (hopen : '\x7b' ∉ before) (hbefore : ¬ fence <:+: before)
    (hafter : ¬ fence <:+: after) (hgap : allBlank gap = true) (hgap' : allBlank gap' = true) :
    extract (.str (String.ofList (before ++ (dump (Value.doc fields) ++ after)))) =
        .ok (Value.doc fields) ∧
      extract (.str (String.ofList (before ++ (fenced gap (dump (Value.doc fields)) gap' ++ after)))) =
        .ok (Value.doc fields) := by
  have hprose := objectText?_prose h hfence hopen hbefore hafter
  have hfenced : objectText? (before ++ (fenced gap (dump (Value.doc fields)) gap' ++ after)) = _ :=
    objectText?_fenced h hfence hopen hbefore hgap hgap'
  rw [normalizeLiterals_eq_self hliteral] at hprose hfenced
  have hmem : '\x7b' ∈ dump (Value.doc fields) := List.mem_cons_self
  refine ⟨extract_of_objectText? ?_ hprose h, extract_of_objectText? ?_ hfenced h⟩
  · exact List.mem_append_right before (List.mem_append_left after hmem)
  · simp only [fenced, List.mem_append, hmem, true_or, or_true]

/-- The fields of a plan without stages. -/
def emptyPlan (interpretation : String) : List (String × Value) :=
  [("interpretation", .str interpretation), ("pipeline", .list [])]

theorem plain_emptyPlan (interpretation : String) :
    Plain Json.maxDepth (Value.doc (emptyPlan interpretation)) := by
  have hkeys : ["interpretation", "pipeline"].Nodup := by decide
  refine .doc 989 (emptyPlan interpretation) hkeys ?_
  simp only [emptyPlan, List.forall_mem_cons, List.not_mem_nil, false_implies, implies_true, and_true]
  exact ⟨.str 989 interpretation, .list 988 [] (by simp)⟩

theorem extract_dump_quoted_brace :
    extract (.str (String.ofList ("Sure: ".toList ++
        (dump (Value.doc (emptyPlan "a \x7d and \"``\" in quotes")) ++ " Done.".toList)))) =
        .ok (Value.doc (emptyPlan "a \x7d and \"``\" in quotes")) ∧
      extract (.str (String.ofList ("Sure: ".toList ++
        (fenced ['\n'] (dump (Value.doc (emptyPlan "a \x7d and \"``\" in quotes"))) ['\n'] ++
          " Done.".toList)))) = .ok (Value.doc (emptyPlan "a \x7d and \"``\" in quotes")) :=
  extract_dump (plain_emptyPlan _) (by decide +kernel) (by decide +kernel) (by decide) (by decide)
    (by decide) (by decide) (by decide)

/-- A shell literal is replaced inside a string literal too. -/
theorem literal_replaced_in_string :
    Plain Json.maxDepth (Value.doc (emptyPlan "cast with NumberLong(5)")) ∧
      extract (.str (String.ofList (dump (Value.doc (emptyPlan "cast with NumberLong(5)"))))) =
        .ok (Value.doc (emptyPlan "cast with 5")) ∧
      Value.doc (emptyPlan "cast with 5") ≠ Value.doc (emptyPlan "cast with NumberLong(5)") := by
  refine ⟨plain_emptyPlan _, ?_, ?_⟩
  · have htext : objectText? (dump (Value.doc (emptyPlan "cast with NumberLong(5)"))) =
        some (dump (Value.doc (emptyPlan "cast with 5"))) := by decide +kernel
    exact extract_of_objectText? List.mem_cons_self htext (plain_emptyPlan _)
  · intro h
    have hkey := (List.cons.inj (Json.doc_injective h)).1
    exact absurd (Value.str.inj (Prod.mk.inj hkey).2) (by decide)

end Inquiry.Reply
