import Inquiry.Dates.Fields
import Inquiry.Proofs.Dates.Conversion

/-!
# Healing keeps the value of an expression

An `Evaluation` gives trees their values in one document, each node from the values of its parts. What
the operators do is open: `ReadsDates` asks of the three conversions only that they give back a date
they are handed as a date or as its text. Then a healed tree has the value of the tree it came from,
as long as every name in the set holds a date in that document.
-/
namespace Inquiry.Dates

open Expression (find?)

universe u

/-- How trees are evaluated in one document. -/
structure Evaluation (V : Type u) where
  /-- What the document holds under a path. -/
  field : String → V
  scalar : Value → V
  /-- What a payload of `$literal` stands for. -/
  payload : Value → V
  array : List V → V
  keyed : List (String × V) → V

namespace Evaluation

variable {V : Type u} (M : Evaluation V)

mutual

def eval : Expression → V
  | .scalar v => M.scalar v
  | .fieldRef path => M.field path
  | .keyed es => M.keyed (evalEntries es)
  | .array xs => M.array (evalItems xs)

def evalItems : List Expression → List V
  | [] => []
  | e :: es => eval e :: evalItems es

def evalEntries : List (String × Expression) → List (String × V)
  | [] => []
  | (key, .scalar v) :: es =>
    (key, if key = "$literal" then M.payload v else M.scalar v) :: evalEntries es
  | (key, e) :: es => (key, eval e) :: evalEntries es

end

/-- The value of `$toString` applied to a value. -/
def text (x : V) : V := M.keyed [("$toString", x)]

/-- A value that a conversion turns into the date `d`: the date or its text. -/
def Spells (d x : V) : Prop := x = d ∨ x = M.text d

/-- What is asked of the conversions, whatever their other arguments are. -/
structure ReadsDates (IsDate : V → Prop) : Prop where
  text_item : ∀ d, IsDate d → M.text (M.array [d]) = M.text d
  toDate : ∀ e d, IsDate d → M.Spells d (M.eval e) → M.eval (.keyed [("$toDate", e)]) = d
  toDate_item : ∀ e d, IsDate d → M.Spells d (M.eval e) →
    M.eval (.keyed [("$toDate", .array [e])]) = d
  dateFromString : ∀ args e d, IsDate d → find? "dateString" args = some e →
    M.Spells d (M.eval e) → M.eval (.keyed [("$dateFromString", .keyed args)]) = d
  convert : ∀ args target e d, IsDate d → find? "to" args = some target →
    isDateTarget target = true → find? "input" args = some e → M.Spells d (M.eval e) →
    M.eval (.keyed [("$convert", .keyed args)]) = d

theorem evalItems_eq_map (xs : List Expression) : M.evalItems xs = xs.map M.eval := by
  induction xs with
  | nil => rfl
  | cons x xs ih => rw [evalItems, ih, List.map_cons]

/-- An entry has the value of what stands under the key, unless that is a payload. -/
theorem evalEntries_cons_of_ne_scalar (key : String) {e : Expression}
    (h : ∀ v, e ≠ .scalar v) (es : List (String × Expression)) :
    M.evalEntries ((key, e) :: es) = (key, M.eval e) :: M.evalEntries es := by
  rw [evalEntries]
  exact fun v hv => h v hv

theorem evalEntries_cons (d : String × Expression) (es : List (String × Expression)) :
    ∃ v, M.evalEntries (d :: es) = (d.1, v) :: M.evalEntries es ∧
      (d.1 ≠ "$literal" → v = M.eval d.2) := by
  obtain ⟨key, e⟩ := d
  by_cases hs : ∃ v, e = .scalar v
  · obtain ⟨v, rfl⟩ := hs
    refine ⟨_, by rw [evalEntries], fun hkey => ?_⟩
    rw [if_neg hkey, eval]
  · simp only [not_exists] at hs
    exact ⟨M.eval e, M.evalEntries_cons_of_ne_scalar key hs es, fun _ => rfl⟩

/-- Two entries under one key have the same value if their trees do and are scalars only together. -/
theorem evalEntries_congr (g : Expression → Expression)
    (hscalar : ∀ e v, g e = .scalar v ↔ e = .scalar v) {es : List (String × Expression)}
    (h : ∀ d ∈ es, M.eval (g d.2) = M.eval d.2) :
    M.evalEntries (es.map fun d => (d.1, g d.2)) = M.evalEntries es := by
  induction es with
  | nil => rfl
  | cons d es ih =>
    obtain ⟨key, e⟩ := d
    have hes := ih fun c hc => h c (List.mem_cons_of_mem _ hc)
    have he : M.eval (g e) = M.eval e := h (key, e) List.mem_cons_self
    by_cases hs : ∃ v, e = .scalar v
    · obtain ⟨v, rfl⟩ := hs
      rw [List.map_cons, (hscalar _ v).mpr rfl, evalEntries, evalEntries, hes]
    · simp only [not_exists] at hs
      have hgs : ∀ v, g e ≠ .scalar v := fun v hv => hs v ((hscalar e v).mp hv)
      rw [List.map_cons, M.evalEntries_cons_of_ne_scalar key hgs,
        M.evalEntries_cons_of_ne_scalar key hs, he, hes]

variable {M} {IsDate : V → Prop} {f : String}

theorem spells_of_reads (h : M.ReadsDates IsDate) (hf : IsDate (M.field f)) {e : Expression}
    (he : Reads f e) : M.Spells (M.field f) (M.eval e) := by
  cases he with
  | field => exact Or.inl rfl
  | text => exact Or.inr rfl
  | textOfItem => exact Or.inr (h.text_item (M.field f) hf)

/-- A conversion that reads a date has the date as its value, whichever way it is written. -/
theorem eval_converts (h : M.ReadsDates IsDate) (hf : IsDate (M.field f)) {e : Expression}
    (he : Converts f e) : M.eval e = M.field f := by
  cases he with
  | toDate reads => exact h.toDate _ _ hf (spells_of_reads h hf reads)
  | toDateItem reads => exact h.toDate_item _ _ hf (spells_of_reads h hf reads)
  | dateFromString text reads =>
    exact h.dateFromString _ _ _ hf text (spells_of_reads h hf reads)
  | convert kind date input reads =>
    exact h.convert _ _ _ _ hf kind date input (spells_of_reads h hf reads)

theorem eval_heal (h : M.ReadsDates IsDate) {known : String → Bool}
    (hknown : ∀ f, known f = true → IsDate (M.field f)) (e : Expression) :
    M.eval (heal known false e) = M.eval e := by
  induction e with
  | scalar v => rw [heal_scalar]
  | fieldRef path => rw [heal_fieldRef]
  | array xs ih =>
    rw [heal_array, eval, eval, evalItems_eq_map, evalItems_eq_map, List.map_map]
    exact congrArg M.array (List.map_congr_left ih)
  | keyed es ih =>
    have hparts : M.eval (healedParts known false es) = M.eval (.keyed es) :=
      congrArg M.keyed (M.evalEntries_congr (heal known false)
        (fun e v => heal_eq_scalar_iff known false) ih)
    rw [heal_keyed]
    rcases collapse_eq_or known false (healedParts known false es) with hc | ⟨f, hc, hf, haccept⟩
    · rw [hc, hparts]
    · have hdate : IsDate (M.field f) := hknown f (by simpa using haccept)
      rw [hc, ← hparts, eval_converts h hdate hf, eval]

end Evaluation

namespace Sample

def only : Value → Value
  | .list [x] => x
  | x => x

def date : Value → Value
  | .tuple [d] => d
  | x => x

def call (op : String) (x : Value) : Value :=
  if op = "$toString" then .tuple [only x]
  else if op = "$toDate" then date (only x)
  else if op = "$dateFromString" then date (x.getD "dateString")
  else if op = "$convert" then date (x.getD "input")
  else .doc [(op, x)]

/-- An evaluation over document values, where the text of a date is the date in a one-item tuple. -/
def orders : Evaluation Value where
  field path := if path = "orderDate" then .day ⟨2024, 3, 1⟩ else .null
  scalar v := v
  payload v := .set [v]
  array xs := .list xs
  keyed
    | [(op, x)] => call op x
    | es => .doc es

def IsDay (v : Value) : Prop := ∃ d, v = .day d

theorem call_of_argument {key : String} (hkey : isOperatorName key = false) (x : Value) :
    call key x = .doc [(key, x)] := by
  have hne : ∀ op, isOperatorName op = true → key ≠ op := by
    intro op hop h
    rw [h, hop] at hkey
    cases hkey
  rw [call, if_neg (hne _ (by decide)), if_neg (hne _ (by decide)), if_neg (hne _ (by decide)),
    if_neg (hne _ (by decide))]

theorem get?_evalEntries {key : String} (hkey : key ≠ "$literal")
    (args : List (String × Expression)) :
    (Value.doc (orders.evalEntries args)).get? key = (find? key args).map orders.eval := by
  induction args with
  | nil => rfl
  | cons d args ih =>
    obtain ⟨v, hv, hval⟩ := orders.evalEntries_cons d args
    rw [hv, Value.get?_doc_cons, Expression.find?_cons, ih]
    split
    · rename_i h
      rw [hval (h ▸ hkey)]
      rfl
    · rfl

theorem getD_eval {key : String} (hkey : isOperatorName key = false)
    {args : List (String × Expression)} {e : Expression} (h : find? key args = some e) :
    (orders.eval (.keyed args)).getD key = orders.eval e := by
  have hlit : key ≠ "$literal" := by
    intro hk
    rw [hk] at hkey
    exact absurd hkey (by decide)
  have hdoc : orders.eval (.keyed args) = .doc (orders.evalEntries args) := by
    rw [Evaluation.eval]
    match args, h with
    | [d], h =>
      rw [Expression.find?_cons] at h
      split at h
      · rename_i hd
        obtain ⟨v, hv, -⟩ := orders.evalEntries_cons d []
        rw [hv, hd]
        exact call_of_argument hkey v
      · cases h
    | c :: d :: args, _ =>
      obtain ⟨v, hv, -⟩ := orders.evalEntries_cons c (d :: args)
      obtain ⟨w, hw, -⟩ := orders.evalEntries_cons d args
      rw [hv, hw]
      rfl
  rw [hdoc, Value.getD, get?_evalEntries hlit, h]
  rfl

theorem eval_call {op : String} (hop : op ≠ "$literal") (e : Expression) :
    orders.eval (.keyed [(op, e)]) = call op (orders.eval e) := by
  obtain ⟨v, hv, hval⟩ := orders.evalEntries_cons (op, e) []
  rw [Evaluation.eval, hv, hval hop]
  rfl

theorem date_of_spells {d x : Value} (hd : IsDay d) (hx : orders.Spells d x) :
    date x = d ∧ only x = x := by
  obtain ⟨d, rfl⟩ := hd
  rcases hx with rfl | rfl <;> exact ⟨rfl, rfl⟩

theorem orders_readsDates : orders.ReadsDates IsDay where
  text_item := by
    rintro _ ⟨d, rfl⟩
    rfl
  toDate := by
    intro e d hd hx
    obtain ⟨hdate, honly⟩ := date_of_spells hd hx
    rw [eval_call (by decide), call, if_neg (by decide), if_pos rfl, honly, hdate]
  toDate_item := by
    intro e d hd hx
    rw [eval_call (by decide), call, if_neg (by decide), if_pos rfl]
    exact (date_of_spells hd hx).1
  dateFromString := by
    intro args e d hd htext hx
    rw [eval_call (by decide), call, if_neg (by decide), if_neg (by decide), if_pos rfl,
      getD_eval (by decide) htext]
    exact (date_of_spells hd hx).1
  convert := by
    intro args target e d hd _ _ hinput hx
    rw [eval_call (by decide), call, if_neg (by decide), if_neg (by decide), if_neg (by decide),
      if_pos rfl, getD_eval (by decide) hinput]
    exact (date_of_spells hd hx).1

/-- The month of an order date that is written as text and read back in some time zone. -/
def month : Expression :=
  .keyed [("$month", .keyed [("$dateFromString", .keyed [
    ("dateString", .keyed [("$toString", .array [.fieldRef "orderDate"])]),
    ("timezone", .fieldRef "zone")])])]

end Sample

/-- Where every name in the set holds a date, healing keeps the value of every expression and of every
stage, in any evaluation that reads dates, as long as no conversion is forced out. -/
theorem eval_heal_of_dates {V : Type u} (M : Evaluation V) (IsDate : V → Prop)
    (h : M.ReadsDates IsDate) (F : DateFields) (hF : ∀ f ∈ F.tracked, IsDate (M.field f)) :
    (∀ e, M.eval (heal F.contains false e) = M.eval e) ∧
    (∀ s, M.eval (healStage F.contains false s).toExpression = M.eval s.toExpression) := by
  have hknown : ∀ f, F.contains f = true → IsDate (M.field f) :=
    fun f hf => hF f (List.contains_iff_mem.mp hf)
  refine ⟨Evaluation.eval_heal h hknown, fun s => ?_⟩
  have hspec : M.evalEntries ([(s.operator, s.spec)].map fun d => (d.1, heal F.contains false d.2)) =
      M.evalEntries [(s.operator, s.spec)] :=
    M.evalEntries_congr (heal F.contains false) (fun e v => heal_eq_scalar_iff F.contains false)
      fun d _ => Evaluation.eval_heal h hknown d.2
  exact congrArg M.keyed hspec

theorem eval_heal_of_dates_orders :
    Sample.orders.ReadsDates Sample.IsDay ∧
    (∀ f ∈ (DateFields.ofNames ["orderDate"] none).tracked, Sample.IsDay (Sample.orders.field f)) ∧
    heal (DateFields.ofNames ["orderDate"] none).contains false Sample.month =
      .keyed [("$month", .fieldRef "orderDate")] ∧
    Sample.orders.eval (heal (DateFields.ofNames ["orderDate"] none).contains false Sample.month) =
      Sample.orders.eval Sample.month := by
  have hfields : ∀ f ∈ (DateFields.ofNames ["orderDate"] none).tracked,
      Sample.IsDay (Sample.orders.field f) := by
    intro f hf
    rw [show f = "orderDate" from List.mem_singleton.mp hf]
    exact ⟨_, rfl⟩
  exact ⟨Sample.orders_readsDates, hfields, rfl,
    (eval_heal_of_dates Sample.orders Sample.IsDay Sample.orders_readsDates _ hfields).1 Sample.month⟩

end Inquiry.Dates
