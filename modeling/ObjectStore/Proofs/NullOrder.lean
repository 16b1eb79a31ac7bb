import ObjectStore.Proofs.Documents.Filter
import ObjectStore.Proofs.Predicate
import ObjectStore.Proofs.Relational.Filter

/-!
# Null has no place in an order

A comparison that asks which of two values comes first holds of nothing when one of them is null, and neither does a conjunction or a range with such a comparison in it. Records are asked for null before they are compared, and the condition for a table is written out as false. A filter for documents has no such case: the database compares with null itself, where to be at most or at least null is to equal it. So filters with these two operators select the documents that have no value, and only the other two select none.
-/

namespace ObjectStore

/-- Whether an operator asks for an order and does not hold of equal values. -/
def Comparison.isStrict : Comparison → Bool
  | lessThan | greaterThan => true
  | equal | notEqual | lessOrEqual | greaterOrEqual => false

theorem Comparison.isStrict_flipped (op : Comparison) : op.flipped.isStrict = op.isStrict := by
  cases op <;> rfl

namespace Predicate

/-- One operand is a key and the other one is null. -/
inductive AgainstNull (key : String) : Operand → Operand → Prop where
  | left : AgainstNull key (.literal .null) (.key key)
  | right : AgainstNull key (.key key) (.literal .null)

/-- A predicate orders a key and null, in a comparison, at one end of a range, or in a conjunction with other predicates. Ranges include their ends. -/
inductive OrdersNull (key : String) : (strict : Bool) → Predicate → Prop where
  | compare {op : Comparison} (horder : op.isOrder = true) {lhs rhs : Operand} (h : AgainstNull key lhs rhs) :
      OrdersNull key op.isStrict (.compare op lhs rhs)
  | low {value low : Operand} (h : AgainstNull key low value) (high : Operand) : OrdersNull key false (.between value low high)
  | high {value high : Operand} (h : AgainstNull key value high) (low : Operand) : OrdersNull key false (.between value low high)
  | all {strict : Bool} {part : Predicate} {parts : List Predicate} (hpart : part ∈ parts) (h : OrdersNull key strict part) :
      OrdersNull key strict (.all parts)

end Predicate

open Predicate (AgainstNull OrdersNull)

variable {key : String} {strict : Bool} {op : Comparison} {lhs rhs : Operand} {predicate : Predicate}

/-! ### Records -/

theorem Comparison.holds_of_againstNull (horder : op.isOrder = true) (h : AgainstNull key lhs rhs) (record : Fields) :
    op.holds (lhs.resolve record) (rhs.resolve record) = false := by
  cases op with
  | equal | notEqual => cases horder
  | _ => cases h <;> simp [Comparison.holds, Operand.resolve, Value.isNull]

theorem Predicate.holds_of_ordersNull (h : OrdersNull key strict predicate) (record : Fields) : predicate.holds record = false := by
  induction h with
  | compare horder h => exact Comparison.holds_of_againstNull horder h record
  | low h high => rw [holds, Comparison.holds_of_againstNull rfl h record, Bool.false_and]
  | high h low => rw [holds, Comparison.holds_of_againstNull rfl h record, Bool.and_false]
  | all hpart _ ih =>
    rw [holds, allHold_eq_all, List.all_eq_false]
    exact ⟨_, hpart, Bool.eq_false_iff.mp ih⟩

/-! ### Rows -/

namespace Relational

/-- A false part makes a conjunction false, whatever is unknown in it. -/
theorem Truth.all_eq_no {parts : List Truth} (h : .no ∈ parts) : Truth.all parts = .no := by
  induction parts with
  | nil => cases h
  | cons first rest ih =>
    rw [Truth.all, List.foldr_cons]
    rcases List.mem_cons.mp h with rfl | hrest
    · cases rest.foldr Truth.and .yes <;> rfl
    · rw [show rest.foldr Truth.and .yes = .no from ih hrest]
      cases first <;> rfl

namespace Condition

theorem ofPredicates_eq_map (table : Table) (parts : List Predicate) : ofPredicates table parts = parts.map (ofPredicate table) := by
  induction parts with
  | nil => rfl
  | cons part parts ih => rw [ofPredicates, ih, List.map_cons]

theorem truths_eq_map (contains : Containment) (cells : Cells) (parts : List Condition) :
    truths contains cells parts = parts.map (truth contains cells) := by
  induction parts with
  | nil => rfl
  | cons part parts ih => rw [truths, ih, List.map_cons]

theorem ofCompare_of_againstNull (table : Table) (horder : op.isOrder = true) (h : AgainstNull key lhs rhs) :
    ofCompare table op lhs rhs = const false := by
  cases op with
  | equal | notEqual => cases horder
  | _ => cases h <;> rfl

theorem truth_of_ordersNull (contains : Containment) (cells : Cells) (table : Table) (h : OrdersNull key strict predicate) :
    (ofPredicate table predicate).truth contains cells = .no := by
  induction h with
  | compare horder h =>
    rw [ofPredicate, ofCompare_of_againstNull table horder h]
    rfl
  | low h high =>
    rw [ofPredicate, ofCompare_of_againstNull table rfl h]
    exact Truth.all_eq_no List.mem_cons_self
  | high h low =>
    rw [ofPredicate, ofCompare_of_againstNull table rfl h]
    exact Truth.all_eq_no (List.mem_cons_of_mem _ List.mem_cons_self)
  | all hpart _ ih =>
    rw [ofPredicate, if_neg (by simpa using List.ne_nil_of_mem hpart), truth, truths_eq_map, ofPredicates_eq_map]
    exact Truth.all_eq_no (List.mem_map.mpr ⟨_, List.mem_map_of_mem hpart, ih⟩)

end Condition

end Relational

/-! ### Documents -/

namespace Documents

/-- What a document database selects, as far as it is about null: nothing comes before or after null, what is at most or at least null is what equals null, and a missing field equals null. Everything else is up to the database. -/
structure Selection where
  selects (filter document : Document) : Prop
  all_iff {filters : List Document} (hne : filters ≠ []) (document : Document) :
    selects [("$and", .array (filters.map .document))] document ↔ ∀ filter ∈ filters, selects filter document
  strict {operator name : String} (hoperator : operator ∈ ["$lt", "$gt"]) (hname : isFieldName name = true) (document : Document) :
    ¬selects [(name, .document [(operator, .null)])] document
  inclusive_iff {operator name : String} (hoperator : operator ∈ ["$lte", "$gte"]) (hname : isFieldName name = true)
    (document : Document) : selects [(name, .document [(operator, .null)])] document ↔
      selects [(name, .document [("$eq", .null)])] document
  equal {name : String} (hname : isFieldName name = true) {document : Document}
    (h : (OrderedMap.get? document name).getD .null = .null) : selects [(name, .document [("$eq", .null)])] document

namespace Filter

theorem documents_eq_map (parts : List Filter) : documents parts = (parts.map document).map .document := by
  induction parts with
  | nil => rfl
  | cons part parts ih => rw [documents, ih, List.map_cons, List.map_cons]

theorem ofPredicates_eq_mapM (parts : List Predicate) : ofPredicates parts = parts.mapM ofPredicate := by
  induction parts with
  | nil => rfl
  | cons part parts ih =>
    rw [Outcome.mapM_cons, ← ih]
    rfl

theorem ofCompare_of_againstNull (op : Comparison) (h : AgainstNull key lhs rhs) :
    ofCompare op lhs rhs = .ok (compare key op .null) ∨ ofCompare op lhs rhs = .ok (compare key op.flipped .null) := by
  cases h with
  | left => exact Or.inr rfl
  | right => exact Or.inl rfl

end Filter

namespace Selection

variable (database : Selection) {document : Document}

theorem of_all {parts : List Filter} (h : database.selects (Filter.all parts).document document) {part : Filter}
    (hpart : part ∈ parts) : database.selects part.document document := by
  rw [Filter.document, Filter.documents_eq_map, database.all_iff] at h
  · exact h _ (List.mem_map_of_mem hpart)
  · exact List.ne_nil_of_mem (List.mem_map_of_mem hpart)

theorem null_iff (key : String) (horder : op.isOrder = true) (document : Document) :
    database.selects (Filter.compare key op .null).document document ↔
      op.isStrict = false ∧ database.selects (Filter.compare key .equal .null).document document := by
  have hname := isFieldName_escape key
  cases op with
  | equal | notEqual => cases horder
  | lessThan => exact iff_of_false (database.strict (by decide) hname document) (fun h => Bool.noConfusion h.1)
  | greaterThan => exact iff_of_false (database.strict (by decide) hname document) (fun h => Bool.noConfusion h.1)
  | lessOrEqual => exact (database.inclusive_iff (by decide) hname document).trans (and_iff_right rfl).symm
  | greaterOrEqual => exact (database.inclusive_iff (by decide) hname document).trans (and_iff_right rfl).symm

theorem compare_iff (horder : op.isOrder = true) (h : AgainstNull key lhs rhs) {filter : Filter}
    (hfilter : Filter.ofCompare op lhs rhs = .ok filter) (document : Document) :
    database.selects filter.document document ↔
      op.isStrict = false ∧ database.selects (Filter.compare key .equal .null).document document := by
  rcases Filter.ofCompare_of_againstNull op h with hsame | hsame
  · obtain rfl := Except.ok.inj (hsame.symm.trans hfilter)
    exact database.null_iff key horder document
  · obtain rfl := Except.ok.inj (hsame.symm.trans hfilter)
    rw [← op.isStrict_flipped]
    exact database.null_iff key (op.isOrder_flipped.trans horder) document

theorem equals_of_ordersNull (h : OrdersNull key strict predicate) {filter : Filter}
    (hfilter : Filter.ofPredicate predicate = .ok filter) (hselects : database.selects filter.document document) :
    strict = false ∧ database.selects (Filter.compare key .equal .null).document document := by
  induction h generalizing filter with
  | compare horder h => exact (database.compare_iff horder h hfilter document).mp hselects
  | low h high =>
    obtain ⟨lower, hlower, hrest⟩ := Outcome.bind_eq_ok_iff.mp hfilter
    obtain ⟨upper, -, hboth⟩ := Outcome.bind_eq_ok_iff.mp hrest
    obtain rfl := Except.ok.inj hboth
    exact (database.compare_iff rfl h hlower document).mp (database.of_all hselects List.mem_cons_self)
  | high h low =>
    obtain ⟨lower, -, hrest⟩ := Outcome.bind_eq_ok_iff.mp hfilter
    obtain ⟨upper, hupper, hboth⟩ := Outcome.bind_eq_ok_iff.mp hrest
    obtain rfl := Except.ok.inj hboth
    exact (database.compare_iff rfl h hupper document).mp
      (database.of_all hselects (List.mem_cons_of_mem _ List.mem_cons_self))
  | all hpart _ ih =>
    obtain ⟨filters, hfilters, rfl⟩ := Outcome.map_eq_ok_iff.mp hfilter
    rw [Filter.ofPredicates_eq_mapM] at hfilters
    obtain ⟨part, hmem, hfound⟩ := Outcome.exists_of_mapM_eq_ok hfilters hpart
    rw [if_neg (by simpa using List.ne_nil_of_mem hmem)] at hselects
    exact ih hfound (database.of_all hselects hmem)

theorem selectsEach_iff {filters : List Document} {answers : List Bool}
    (h : selectsEach document (filters.map .document) = some answers) :
    answers.all id = true ↔ ∀ filter ∈ filters, Documents.selects document filter = some true := by
  induction filters generalizing answers with
  | nil =>
    obtain rfl := Option.some.inj h
    exact iff_of_true rfl nofun
  | cons filter filters ih =>
    obtain ⟨first, hfirst, hrest⟩ := Option.bind_eq_some_iff.mp h
    obtain ⟨rest, hothers, rfl⟩ := Option.map_eq_some_iff.mp hrest
    rw [List.all_cons, Bool.and_eq_true, ih hothers, List.forall_mem_cons, hfirst]
    exact and_congr_left' ⟨congrArg some, Option.some.inj⟩

theorem selectsEach_of_forall {filters : List Document}
    (h : ∀ filter ∈ filters, Documents.selects document filter = some true) :
    selectsEach document (filters.map .document) = some (filters.map fun _ => true) := by
  induction filters with
  | nil => rfl
  | cons filter filters ih =>
    obtain ⟨hfirst, hrest⟩ := List.forall_mem_cons.mp h
    rw [List.map_cons, selectsEach, hfirst, Option.bind_some, ih hrest]
    rfl

/-- A scalar equals null or has no order with it. -/
theorem order?_null (scalar : Scalar) : scalar.order? .null = some .eq ∨ scalar.order? .null = none := by
  cases scalar with
  | null => exact Or.inl rfl
  | _ => exact Or.inr rfl

theorem meetsOne_null (field : Bson) (operator : String) :
    meetsOne field operator .null = (Scalar.ofBson? field).bind fun scalar => scalar.satisfies? operator .null := by
  rw [meetsOne, Scalar.ofBson?]
  all_goals simp

theorem meetsOne_inclusive {operator : String} (hoperator : operator ∈ ["$lte", "$gte"]) (field : Bson) :
    meetsOne field operator .null = some true ↔ meetsOne field "$eq" .null = some true := by
  rw [meetsOne_null, meetsOne_null, Option.bind_eq_some_iff, Option.bind_eq_some_iff]
  refine exists_congr fun scalar => and_congr_right' ?_
  rcases List.mem_pair.mp hoperator with rfl | rfl <;> rcases order?_null scalar with h | h <;> simp [Scalar.satisfies?, h]

theorem meetsOne_strict {operator : String} (hoperator : operator ∈ ["$lt", "$gt"]) (field : Bson) :
    meetsOne field operator .null ≠ some true := by
  rw [meetsOne_null, ne_eq, Option.bind_eq_some_iff]
  rintro ⟨scalar, -, hholds⟩
  rcases List.mem_pair.mp hoperator with rfl | rfl <;> rcases order?_null scalar with h | h <;>
    simp [Scalar.satisfies?, h] at hholds

/-- A database that selects what is known to be selected. -/
def known : Selection where
  selects filter document := Documents.selects document filter = some true
  all_iff {filters} hne document := by
    rw [selects_single, selectsClause]
    constructor
    · intro h
      obtain ⟨answers, hanswers, hjoined⟩ := Option.bind_eq_some_iff.mp h
      refine (selectsEach_iff hanswers).mp ?_
      rw [joined?] at hjoined
      split at hjoined
      · cases hjoined
      · exact Option.some.inj hjoined
    · intro h
      obtain ⟨first, rest, rfl⟩ := List.exists_cons_of_ne_nil hne
      rw [selectsEach_of_forall h]
      simp [joined?]
  strict hoperator hname document := by
    rw [selects_condition document hname]
    exact meetsOne_strict hoperator _
  inclusive_iff hoperator hname document := by
    rw [selects_condition document hname, selects_condition document hname]
    exact meetsOne_inclusive hoperator _
  equal hname document h := by
    rw [selects_condition document hname, h]
    rfl

end Selection

end Documents

/-- A predicate that orders a key and null holds of no record, and its condition is false on every row. Its filter selects no document if the order is strict. Otherwise it selects only documents that have the key equal to null, and a comparison by itself selects all of those. -/
theorem null_never_ordered (h : OrdersNull key strict predicate) :
    (∀ record, predicate.holds record = false) ∧
    (∀ (contains : Relational.Containment) {table : Relational.Table} (row : Relational.TableRow table) (before after : List Value),
      let pieces := (Relational.Condition.ofPredicate table predicate).pieces
      Relational.Sql.read ⟨contains, row.cells, before ++ pieces.parameters ++ after⟩
        (String.join (pieces.texts before.length)) = some .no) ∧
    ∀ filter, Documents.Filter.ofPredicate predicate = .ok filter → ∀ (database : Documents.Selection) (document : Document),
      (database.selects filter.document document →
        strict = false ∧ database.selects (Documents.Filter.compare key .equal .null).document document) ∧
      ∀ op lhs rhs, predicate = .compare op lhs rhs →
        (database.selects filter.document document ↔
          strict = false ∧ database.selects (Documents.Filter.compare key .equal .null).document document) ∧
        (strict = false → Documents.fieldOf document key = .null → database.selects filter.document document) := by
  refine ⟨Predicate.holds_of_ordersNull h, ?_, ?_⟩
  · intro contains table row before after pieces
    have hbound : Relational.Sql.Bound ⟨contains, row.cells, before ++ pieces.parameters ++ after⟩ before.length pieces := by
      rw [Relational.Sql.Bound, List.append_assoc, List.drop_left]
      exact List.prefix_append _ _
    rw [Relational.Sql.read_condition (Relational.wellFormed_ofPredicate row predicate) hbound,
      Relational.Condition.truth_of_ordersNull _ _ table h]
  · intro filter hfilter database document
    refine ⟨database.equals_of_ordersNull h hfilter, ?_⟩
    rintro op lhs rhs rfl
    cases h with
    | compare horder h =>
      have hiff := database.compare_iff horder h hfilter document
      refine ⟨hiff, fun hstrict hnull => hiff.mpr ⟨hstrict, ?_⟩⟩
      exact database.equal (Documents.isFieldName_escape key) hnull

/-- A range from null, among other predicates. -/
def unbounded : Predicate :=
  .all [.not (.any []), .between (.key "n") (.literal .null) (.literal (.integer 3))]

theorem unbounded_never_holds :
    OrdersNull "n" false unbounded ∧ (∀ record, unbounded.holds record = false) ∧
      ∃ filter, Documents.Filter.ofPredicate unbounded = .ok filter ∧
        ¬Documents.Selection.known.selects filter.document [("n", .int64 2)] := by
  have hordered : OrdersNull "n" false unbounded :=
    .all (List.mem_cons_of_mem _ List.mem_cons_self) (.low .left _)
  obtain ⟨hrecords, -, hdocuments⟩ := null_never_ordered hordered
  obtain ⟨filter, hfilter⟩ : ∃ filter, Documents.Filter.ofPredicate unbounded = .ok filter := ⟨_, rfl⟩
  refine ⟨hordered, hrecords, filter, hfilter, fun hselects => ?_⟩
  obtain ⟨-, hnull⟩ := (hdocuments filter hfilter _ _).1 hselects
  have hdiffers : Documents.selects [("n", .int64 2)] (Documents.Filter.compare "n" .equal .null).document ≠ some true := by
    decide
  exact hdiffers hnull

/-- A filter with `$lte` and null selects a document without the field, though the predicate holds of no record. -/
theorem absent_at_most_null :
    let atMost : Predicate := .compare .lessOrEqual (.key "n") (.literal .null)
    ∃ filter, Documents.Filter.ofPredicate atMost = .ok filter ∧ Documents.Selection.known.selects filter.document [] ∧
      atMost.holds [] = false :=
  ⟨_, rfl, rfl, rfl⟩

end ObjectStore
