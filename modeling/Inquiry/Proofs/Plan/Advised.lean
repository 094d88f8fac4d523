import Inquiry.Proofs.Plan.Shaping
import Inquiry.Proofs.Text.Lowering

/-!
# What a hint is, once it is read

Whatever the chart part of a plan is, what is read from it is in normal form: the kind is its own
trimmed lower case, no dimension is empty, every series that is an object has its template, and there
are colors only where all of them are texts. No line is logged on the way. One thing is not made good:
the kind is chosen before it is trimmed, so a blank kind counts as given, and becomes empty.
-/
namespace Inquiry.Advice

open Value (IsJson TextKeys lookup)

variable {es : List (Value × Value)} {advice : Value}

/-- The fields of the first mapping that stands under the key of an encoding. -/
def encoding (es : List (Value × Value)) : List (String × Value) :=
  match es.find? fun e => e.1 == .str "encode" && e.2.isDict with
  | some (_, .dict ds) => ds.filterMap fun d => d.1.str?.map (·, d.2)
  | _ => []

/-- Texts and numbers count as kind and name, and mappings as encoding; all other settings are
kept. -/
def templateOf (es : List (Value × Value)) : SeriesTemplate where
  kind := (lookup "type" es).bind asText
  name := (lookup "name" es).bind asText
  encode := encoding es
  extras := (es.filterMap fun e => e.1.str?.map (·, e.2)).filter fun f =>
    !SeriesTemplate.fieldNames.contains f.1

theorem normalizeSeries_cons (key : String) (v : Value) (es : List (Value × Value)) :
    normalizeSeries ((.str key, v) :: es) =
      if key = "type" ∨ key = "name" then (.str key, .optStr (asText v)) :: normalizeSeries es
      else if key = "encode" ∧ v.isDict = false then normalizeSeries es
      else (.str key, v) :: normalizeSeries es := by
  have hkey (name : String) : (Value.str key == .str name) = (key == name) := rfl
  simp only [normalizeSeries, List.filterMap_cons, hkey, Bool.or_eq_true, Bool.and_eq_true,
    Bool.not_eq_true', beq_iff_eq]
  split_ifs <;> rfl

/-- Induction over the entries of an object with texts as keys. -/
@[elab_as_elim]
theorem textKeys_induction {motive : ∀ es, TextKeys es → Prop}
    (nil : motive [] fun _ he => nomatch he)
    (cons : ∀ (key : String) (v : Value) (es : List (Value × Value)) (h : TextKeys es)
      (hcons : TextKeys ((.str key, v) :: es)), motive es h → motive ((.str key, v) :: es) hcons)
    (es : List (Value × Value)) (h : TextKeys es) : motive es h := by
  induction es with
  | nil => exact nil
  | cons e es ih =>
    obtain ⟨k, v⟩ := e
    obtain ⟨⟨key, hkey⟩, hes⟩ := List.forall_mem_cons.mp h
    obtain rfl : k = .str key := hkey
    exact cons key v es hes h (ih hes)

theorem lookup_normalizeSeries {name : String} (hname : name = "type" ∨ name = "name")
    (h : TextKeys es) :
    lookup name (normalizeSeries es) = (lookup name es).map fun v => .optStr (asText v) := by
  induction es, h using textKeys_induction with
  | nil => rfl
  | cons key v es h hcons ih =>
    rw [normalizeSeries_cons, lookup]
    by_cases hkey : key = name
    · rw [if_pos (hkey ▸ hname), if_pos hkey, lookup, if_pos hkey]
      rfl
    · rw [if_neg hkey, ← ih]
      split_ifs
      · rw [lookup, if_neg hkey]
      · rfl
      · rw [lookup, if_neg hkey]

theorem field_text {name : String} (hname : name = "type" ∨ name = "name") (h : TextKeys es) :
    Shape.field (normalizeSeries es) name none (Shape.optional Shape.text) =
      .ok ((lookup name es).bind asText) := by
  rw [Shape.field, lookup_normalizeSeries hname h]
  cases lookup name es with
  | none => rfl
  | some v =>
    change Shape.within _ (Shape.optional Shape.text (.optStr (asText v))) = .ok (asText v)
    cases asText v <;> rfl

theorem lookup_encode_normalizeSeries (h : TextKeys es) :
    lookup "encode" (normalizeSeries es) =
      (es.find? fun e => e.1 == .str "encode" && e.2.isDict).map (·.2) := by
  induction es, h using textKeys_induction with
  | nil => rfl
  | cons key v es h hcons ih =>
    have hkey : (Value.str key == .str "encode") = (key == "encode") := rfl
    rw [normalizeSeries_cons, List.find?_cons, hkey]
    by_cases hencode : key = "encode"
    · subst hencode
      rw [if_neg (by decide)]
      cases hdict : v.isDict with
      | true => rfl
      | false => exact ih
    · have hne : (key == "encode") = false := beq_eq_false_iff_ne.mpr hencode
      rw [hne, Bool.false_and, ← ih]
      split_ifs
      · rw [lookup, if_neg hencode]
      · rfl
      · rw [lookup, if_neg hencode]

theorem field_encode (h : (Value.dict es).IsJson) :
    Shape.field (normalizeSeries es) "encode" [] Shape.mapping = .ok (encoding es) := by
  rw [Shape.field, lookup_encode_normalizeSeries h.keys, encoding]
  cases hfind : es.find? fun e => e.1 == .str "encode" && e.2.isDict with
  | none => rfl
  | some e =>
    obtain ⟨k, v⟩ := e
    have hmem := List.mem_of_find?_eq_some hfind
    have hdict : v.isDict = true := by
      have hfound := List.find?_some hfind
      exact (Bool.and_eq_true _ _ ▸ hfound).2
    match v, hdict with
    | .dict ds, _ =>
      change Shape.within _ (Shape.mapping (.dict ds)) = _
      rw [Shape.mapping, Shape.document_of_textKeys (h.members _ hmem).keys]
      rfl

theorem others_normalizeSeries (h : TextKeys es) :
    Shape.others SeriesTemplate.fieldNames (normalizeSeries es) = .ok (templateOf es).extras := by
  induction es, h using textKeys_induction with
  | nil => rfl
  | cons key v es h hcons ih =>
    have hextras : (templateOf ((.str key, v) :: es)).extras =
        if SeriesTemplate.fieldNames.contains key then (templateOf es).extras
        else (key, v) :: (templateOf es).extras := by
      simp only [templateOf, List.filterMap_cons, Value.str?, Option.map_some, List.filter_cons]
      cases SeriesTemplate.fieldNames.contains key <;> rfl
    rw [normalizeSeries_cons, hextras]
    by_cases hfield : SeriesTemplate.fieldNames.contains key = true
    · rw [if_pos hfield]
      split_ifs
      · rw [Shape.others, if_pos hfield, ih]
      · exact ih
      · rw [Shape.others, if_pos hfield, ih]
    · have hother : key ≠ "type" ∧ key ≠ "name" ∧ key ≠ "encode" := by
        simpa [SeriesTemplate.fieldNames] using hfield
      rw [if_neg hfield, if_neg (by tauto), if_neg (by tauto), Shape.others, if_neg hfield, ih]
      rfl

/-- A series of JSON is never dropped. -/
theorem readSeries_eq (h : (Value.dict es).IsJson) :
    readSeries es = .done (some (templateOf es)) := by
  rw [readSeries, if_pos h.keys.all_isSome, SeriesTemplate.ofEntries, field_text (.inl rfl) h.keys,
    field_text (.inr rfl) h.keys, field_encode h, others_normalizeSeries h.keys]
  rfl

theorem readAllSeries_eq {objects : List (List (Value × Value))}
    (h : ∀ es ∈ objects, (Value.dict es).IsJson) :
    readAllSeries objects = .done (objects.map templateOf) := by
  induction objects with
  | nil => rfl
  | cons es rest ih =>
    obtain ⟨hes, hrest⟩ := List.forall_mem_cons.mp h
    rw [readAllSeries, readSeries_eq hes, ih hrest]
    rfl

/-- The texts that may become the kind, in the order in which they count. -/
def kindTexts (advice : Value) : List String :=
  [asText (advice.getD "type"),
    (seriesObjects (optionOf advice)).head?.bind fun es => (lookup "type" es).bind asText,
    some "bar"].filterMap id

/-- The first of them that is not empty. -/
def chosenKind (advice : Value) : String :=
  ((kindTexts advice).find? fun s => !s.isEmpty).getD "bar"

theorem find?_nonempty_cons (text : Option String) (texts : List (Option String)) :
    ((text :: texts).filterMap id).find? (fun s => !s.isEmpty) =
      (text.filter fun s => !s.isEmpty).or ((texts.filterMap id).find? fun s => !s.isEmpty) := by
  cases text with
  | none => rfl
  | some s =>
    have hcons : (some s :: texts).filterMap id = s :: texts.filterMap id := rfl
    rw [hcons, List.find?_cons, Option.filter_some]
    cases s.isEmpty <;> rfl

theorem kind_hintFrom (advice : Value) :
    (hintFrom advice (optionOf advice) ((seriesObjects (optionOf advice)).map templateOf)).kind =
      Text.lower (Text.trim (chosenKind advice)) := by
  have hfirst : ((seriesObjects (optionOf advice)).map templateOf).head?.bind (·.kind) =
      (seriesObjects (optionOf advice)).head?.bind fun es => (lookup "type" es).bind asText := by
    cases seriesObjects (optionOf advice) <;> rfl
  change Text.lower (Text.trim (((givenText (advice.getD "type")).or
    ((((seriesObjects (optionOf advice)).map templateOf).head?.bind (·.kind)).filter _)).getD _)) = _
  rw [hfirst, chosenKind, kindTexts, find?_nonempty_cons, find?_nonempty_cons, ← Option.or_assoc,
    givenText]
  cases (Option.filter _ _).or (Option.filter _ _) <;> rfl

/-- The items among which the dimensions stand: those of the first place where something is
given. -/
def dimensionItems (advice : Value) : List Value :=
  match firstGiven [(firstMapping ((optionOf advice).getD "dataset")).getD "dimensions",
      (firstMapping (advice.getD "data")).getD "dimensions", advice.getD "dimensions"] with
  | .list vs => vs
  | _ => []

/-- The name of an item: itself, if it is a text, or the text under its name. -/
def itemName : Value → Option String
  | .dict es => (lookup "name" es).bind Value.str?
  | v => v.str?

theorem dimensions_eq (advice : Value) :
    dimensions advice (optionOf advice) =
      ((dimensionItems advice).filterMap itemName).filter fun s => !s.isEmpty := by
  have hname (v : Value) : dimensionName? v = (itemName v).filter fun s => !s.isEmpty := by
    cases v with
    | dict es =>
      change ((lookup "name" es).getD .null).str?.filter _ = ((lookup "name" es).bind _).filter _
      cases lookup "name" es <;> rfl
    | _ => rfl
  unfold dimensions dimensionItems
  generalize firstGiven _ = given
  cases given with
  | list vs =>
    rw [List.filter_filterMap]
    exact List.filterMap_congr fun v _ => hname v
  | _ => rfl

theorem texts_iff {vs : List Value} {cs : List String} :
    (∀ v ∈ vs, v.str?.isSome = true) ∧ vs.filterMap Value.str? = cs ↔ vs = cs.map .str := by
  constructor
  · rintro ⟨htexts, rfl⟩
    rw [List.map_filterMap]
    refine (List.filterMap_some.symm.trans (List.filterMap_congr fun v hv => ?_))
    cases v with
    | str s => rfl
    | _ => cases htexts _ hv
  · rintro rfl
    simp [Value.str?, Function.comp_def]

theorem colors?_eq_some_iff {v : Value} {cs : List String} : colors? v = some cs ↔ v = .strs cs := by
  unfold colors?
  split
  · rename_i vs
    rw [Option.ite_none_right_eq_some, List.all_eq_true, Option.some.injEq, texts_iff, Value.strs,
      Value.list.injEq]
  · rename_i hlist
    refine iff_of_false (by simp) ?_
    rintro rfl
    exact hlist _ rfl

theorem givenText_ne_empty {v : Value} {s : String} (h : givenText v = some s) : s ≠ "" := by
  have hs := (Option.filter_eq_some_iff.mp h).2
  simpa using hs

/-- What holds of a hint, whatever it was read from. -/
structure NormalForm (advice : Value) (hint : Hint) : Prop where
  id_nonempty : hint.id ≠ ""
  kind_settled : Text.lower (Text.trim hint.kind) = hint.kind
  kind_chosen : hint.kind = Text.lower (Text.trim (chosenKind advice))
  kind_nonempty : hint.kind ≠ "" ↔ Text.allBlank (chosenKind advice) = false
  dimensions_nonempty : ∀ d ∈ hint.dimensions, d ≠ ""
  dimensions_ordered : hint.dimensions =
    ((dimensionItems advice).filterMap itemName).filter fun s => !s.isEmpty
  series_complete : hint.series = (seriesObjects (optionOf advice)).map templateOf
  colors_texts : ∀ cs, hint.color = some cs ↔ (optionOf advice).getD "color" = .strs cs

theorem normalForm_hintFrom (advice : Value) : NormalForm advice
    (hintFrom advice (optionOf advice) ((seriesObjects (optionOf advice)).map templateOf)) where
  id_nonempty := by
    change (givenText (advice.getD "id")).getD "primary" ≠ ""
    cases hid : givenText (advice.getD "id") with
    | none => decide
    | some s => exact givenText_ne_empty hid
  kind_settled := by rw [kind_hintFrom, Text.lower_trim_lower_trim]
  kind_chosen := kind_hintFrom advice
  kind_nonempty := by
    rw [kind_hintFrom, ne_eq, Text.lower_trim_eq_empty_iff, Bool.not_eq_true]
  dimensions_nonempty := by
    change ∀ d ∈ dimensions advice (optionOf advice), d ≠ ""
    rw [dimensions_eq]
    intro d hd
    simpa using (List.mem_filter.mp hd).2
  dimensions_ordered := dimensions_eq advice
  series_complete := rfl
  colors_texts := fun _ => colors?_eq_some_iff

/-- Every JSON value is read as a hint in normal form, or as none where it is no object, and no line
is logged. The kind is its own trimmed lower case; it is empty where the text that is chosen for it
is blank, and nowhere else. -/
theorem read_normalForm (h : advice.IsJson) : ∃ hint?, read advice = .done hint? ∧
    hint?.isSome = advice.isDict ∧ ∀ hint ∈ hint?, NormalForm advice hint := by
  cases advice with
  | dict es =>
    have hread : read (.dict es) = .done (some (hintFrom (.dict es) (optionOf (.dict es))
        ((seriesObjects (optionOf (.dict es))).map templateOf))) := by
      have hseries := readAllSeries_eq (isJson_seriesObjects (isJson_optionOf h))
      change (readAllSeries (seriesObjects (optionOf (.dict es))) >>= _) = _
      rw [hseries]
      rfl
    refine ⟨_, hread, rfl, fun hint hhint => ?_⟩
    obtain rfl := Option.some.inj hhint
    exact normalForm_hintFrom (.dict es)
  | _ => exact ⟨none, rfl, rfl, fun _ hnone => absurd hnone (Option.not_mem_none _)⟩

/-- A chart part with something to make good at every place. -/
private def untidy : Value := .doc [("type", .str " Line\t"), ("id", .str ""),
  ("dimensions", .list [.str "", .doc [("name", .str "month")], .int 3, .str "total"]),
  ("option", .doc [("series", .list [.doc [("type", .bool true), ("encode", .int 0)], .null]),
    ("color", .list [.str "red", .null])])]

private theorem isJson_doc {fields : List (String × Value)} (h : ∀ f ∈ fields, f.2.IsJson) :
    (Value.doc fields).IsJson := by
  refine .dict (Value.textKeys_doc fields) fun e he => ?_
  obtain ⟨f, hf, rfl⟩ := List.mem_map.mp he
  exact h f hf

private theorem isJson_untidy : untidy.IsJson := by
  have hname : (Value.doc [("name", .str "month")]).IsJson := isJson_doc (by simp [IsJson.str])
  have hseries : (Value.doc [("type", .bool true), ("encode", .int 0)]).IsJson :=
    isJson_doc (by simp [IsJson.bool, IsJson.int])
  refine isJson_doc ?_
  simp only [List.forall_mem_cons, List.not_mem_nil, false_implies, implies_true, and_true]
  refine ⟨.str _, .str _, .list (by simp [hname, IsJson.str, IsJson.int]), isJson_doc ?_⟩
  simp only [List.forall_mem_cons, List.not_mem_nil, false_implies, implies_true, and_true]
  exact ⟨.list (by simp [hseries, IsJson.null]), .list (by simp [IsJson.str, IsJson.null])⟩

theorem read_normalForm_untidy : untidy.IsJson ∧ (∃ hint?, read untidy = .done hint? ∧
    hint?.isSome = untidy.isDict ∧ ∀ hint ∈ hint?, NormalForm untidy hint) ∧
    (read untidy).result = .ok (some ⟨"primary", "line", "", none, none, ["month", "total"],
      [⟨none, none, [], []⟩], none⟩) :=
  ⟨isJson_untidy, read_normalForm isJson_untidy, rfl⟩

/-- A blank kind is given, so that nothing stands in for it, and nothing is left of it. -/
theorem kind_blank_emptied : (Value.doc [("type", .str "   ")]).IsJson ∧
    ∃ hint, read (.doc [("type", .str "   ")]) = .done (some hint) ∧ hint.kind = "" :=
  ⟨isJson_doc (by simp [IsJson.str]), _, rfl, by decide⟩

end Inquiry.Advice
