import ObjectStore.Documents.Filter
import ObjectStore.Proofs.Bson.Codec
import ObjectStore.Proofs.Documents.Matching
import ObjectStore.Proofs.Predicate.Comparison

/-!
# Filters select what predicates hold of

On plain data a filter document selects the records that its predicate holds of, and a predicate has a filter unless it relates two fields. Plain data go by their classes on both sides: the value, its BSON form and what the database compares of that form are one and the same scalar, so equality and order agree for every pair. The literal on the left of a comparison changes sides with its operator; a missing field is null on both sides.
-/

namespace ObjectStore

namespace Instant

theorem parts_of_whole {t : Instant} (h : ofMillis? t.millis = some t) :
    t.seconds = t.millis / 1000 ∧ t.nanos = (t.millis % 1000).toNat * 1000000 := by
  rw [ofMillis?, ofParts?] at h
  split at h
  · have hparts := Option.some.inj h
    exact ⟨(congrArg Instant.seconds hparts).symm, (congrArg Instant.nanos hparts).symm⟩
  · cases h

theorem compare_of_whole {t u : Instant} (ht : ofMillis? t.millis = some t) (hu : ofMillis? u.millis = some u) :
    t.compare u = Ord.compare t.millis u.millis := by
  obtain ⟨hseconds, hnanos⟩ := parts_of_whole ht
  obtain ⟨hseconds', hnanos'⟩ := parts_of_whole hu
  rcases Int.lt_trichotomy t.millis u.millis with hless | hsame | hgreater
  · rw [Int.compare_eq_lt.mpr hless, compare]
    rcases Int.lt_or_eq_of_le (show t.seconds ≤ u.seconds by omega) with hfirst | hequal
    · rw [Int.compare_eq_lt.mpr hfirst]
      rfl
    · rw [Int.compare_eq_eq.mpr hequal, Ordering.then, Nat.compare_eq_lt]
      omega
  · have hparts : t.seconds = u.seconds ∧ t.nanos = u.nanos := by
      rw [hseconds, hseconds', hnanos, hnanos', hsame]
      exact ⟨rfl, rfl⟩
    rw [Int.compare_eq_eq.mpr hsame, compare, Int.compare_eq_eq.mpr hparts.1, Ordering.then, Nat.compare_eq_eq]
    exact hparts.2
  · rw [Int.compare_eq_gt.mpr hgreater, compare]
    rcases Int.lt_or_eq_of_le (show u.seconds ≤ t.seconds by omega) with hfirst | hequal
    · rw [Int.compare_eq_gt.mpr hfirst]
      rfl
    · rw [Int.compare_eq_eq.mpr hequal.symm, Ordering.then, Nat.compare_eq_gt]
      omega

end Instant

/-! ### Plain data -/

namespace Value

open Documents (Scalar)

/-- Whether a value is a scalar that the database keeps as it is and compares by its class. -/
def isPlain : Value → Bool
  | null | boolean _ | string _ | integer _ => true
  | number x => x.isFinite
  | decimal d => (Decimal128.ofDecimal? d).isSome
  | timestamp t => Instant.ofMillis? t.millis == some t
  | _ => false

/-- Whether a value is plain or a list of plain values. -/
def isPlainOrList : Value → Bool
  | array items => items.all isPlain
  | value => value.isPlain

/-- The scalar of a plain value. -/
def scalar? : Value → Option Scalar
  | null => some .null
  | boolean flag => some (.boolean flag)
  | string text => some (.text text)
  | timestamp t => some (.instant t.millis)
  | integer n => some (.number n.toInt)
  | number x => if x.isFinite then some (.number x.toRat) else none
  | decimal d => some (.number d.toRat)
  | _ => none

variable {a b : Value} {s t : Scalar}

theorem exists_scalar? {value : Value} (h : value.isPlain = true) : ∃ s, value.scalar? = some s := by
  cases value with
  | number x =>
    have hfinite : x.isFinite = true := h
    exact ⟨.number x.toRat, if_pos hfinite⟩
  | date | time | binary | array | object => cases h
  | _ => exact ⟨_, rfl⟩

/-- The form of a plain value is the same scalar. -/
theorem exists_ofValue_of_plain {value : Value} (h : value.isPlain = true) (hscalar : value.scalar? = some s) :
    ∃ bson, Bson.ofValue value = .ok bson ∧ Scalar.ofBson? bson = some s := by
  cases value with
  | decimal d =>
    obtain ⟨x, hx⟩ := Option.isSome_iff_exists.mp h
    obtain ⟨e, he, hsame⟩ := Decimal128.represents_of_ofDecimal? hx
    refine ⟨.decimal128 x, by rw [Bson.ofValue_decimal, Bson.ofDecimal, hx], ?_⟩
    rw [Scalar.ofBson?, he, Option.map_some, Decimal.same_iff_toRat_eq.mp hsame]
    exact hscalar
  | number x =>
    exact ⟨.double x, rfl, hscalar⟩
  | date | time | binary | array | object => cases h
  | _ => exact ⟨_, rfl, hscalar⟩

theorem exists_number_of_isNumeric {value : Value} (h : value.isNumeric = true) (hscalar : value.scalar? = some s) :
    ∃ q, value.rational? = some q ∧ s = .number q := by
  cases value with
  | number x =>
    rw [scalar?] at hscalar
    split at hscalar
    · next hfinite => exact ⟨x.toRat, if_pos hfinite, (Option.some.inj hscalar).symm⟩
    · cases hscalar
  | integer n | decimal d => exact ⟨_, rfl, (Option.some.inj hscalar).symm⟩
  | _ => cases h

theorem compare?_of_mixed (h : a.isNumeric ≠ b.isNumeric) : a.compare? b = none := by
  cases a <;> cases b <;> first | rfl | exact absurd rfl h

theorem order?_of_mixed (hb : b.isPlain = true) (hnumeric : b.isNumeric = false) (ht : b.scalar? = some t) (q : ℚ) :
    (Scalar.number q).order? t = none := by
  cases b with
  | null | boolean | string | timestamp =>
    cases ht
    rfl
  | integer | number | decimal => cases hnumeric
  | date | time | binary | array | object => cases hb

theorem compare?_of_plain (ha : a.isPlain = true) (hb : b.isPlain = true) (hs : a.scalar? = some s) (ht : b.scalar? = some t) :
    a.compare? b = s.order? t := by
  cases hna : a.isNumeric with
  | true =>
    obtain ⟨p, hp, rfl⟩ := exists_number_of_isNumeric hna hs
    cases hnb : b.isNumeric with
    | true =>
      obtain ⟨q, hq, rfl⟩ := exists_number_of_isNumeric hnb ht
      exact compare?_of_rational? hp hq
    | false => rw [compare?_of_mixed (by rw [hna, hnb]; decide), order?_of_mixed hb hnb ht]
  | false =>
    cases hnb : b.isNumeric with
    | true =>
      obtain ⟨q, hq, rfl⟩ := exists_number_of_isNumeric hnb ht
      rw [compare?_of_mixed (by rw [hna, hnb]; decide), Scalar.order?_swap, order?_of_mixed ha hna hs, Option.map_none]
    | false =>
      cases a with
      | null | boolean | string =>
        cases hs
        cases b with
        | null | boolean | string | timestamp =>
          cases ht
          rfl
        | integer | number | decimal => cases hnb
        | date | time | binary | array | object => cases hb
      | timestamp first =>
        cases hs
        cases b with
        | timestamp second =>
          cases ht
          exact congrArg some (Instant.compare_of_whole (beq_iff_eq.mp ha) (beq_iff_eq.mp hb))
        | null | boolean | string =>
          cases ht
          rfl
        | integer | number | decimal => cases hnb
        | date | time | binary | array | object => cases hb
      | integer | number | decimal => cases hna
      | date | time | binary | array | object => cases ha

theorem isScalar_of_isPlain {value : Value} (h : value.isPlain = true) : value.isScalar = true := by
  cases value with
  | array | object => cases h
  | _ => rfl

theorem namesDistinct_of_isPlain {value : Value} (h : value.isPlain = true) : value.namesDistinct = true := by
  cases value with
  | array | object => cases h
  | _ => rfl

theorem beq_order {α : Type} [BEq α] [LawfulBEq α] {x y : α} {order : Ordering} (h : order = .eq ↔ x = y) :
    (x == y) = (some order == some Ordering.eq) := by
  rw [Bool.eq_iff_iff, beq_iff_eq, beq_iff_eq, Option.some.injEq, h]

/-- Plain values are loosely equal if they are ordered and neither comes first. -/
theorem looselyEquals_of_plain (ha : a.isPlain = true) (hb : b.isPlain = true) :
    a.looselyEquals b = (a.compare? b == some .eq) := by
  rw [looselyEquals, eqBy_of_isScalar (isScalar_of_isPlain ha), looseScalar]
  split
  · rfl
  · next hnumeric =>
    cases a with
    | null => cases b <;> rfl
    | boolean x =>
      cases b with
      | boolean y => exact beq_order (by cases x <;> cases y <;> decide)
      | _ => rfl
    | string x =>
      cases b with
      | string y => exact beq_order Std.LawfulEqOrd.compare_eq_iff_eq
      | _ => rfl
    | timestamp x =>
      cases b with
      | timestamp y => exact beq_order (Instant.compare_eq_iff x y)
      | _ => rfl
    | integer | number | decimal =>
      cases b with
      | integer | number | decimal => exact absurd rfl hnumeric
      | _ => rfl
    | date | time | binary | array | object => cases ha

end Value

/-! ### Operators -/

/-- Whether an operator asks which of two values comes first. -/
def Comparison.isOrder : Comparison → Bool
  | equal | notEqual => false
  | lessThan | greaterThan | lessOrEqual | greaterOrEqual => true

theorem Comparison.isOrder_flipped (op : Comparison) : op.flipped.isOrder = op.isOrder := by
  cases op <;> rfl

namespace Documents

/-- The operator of the database says of a field and a literal what the library says, unless the literal is null and is asked for its place. -/
theorem satisfies?_operator {a b : Value} {s t : Scalar} (ha : a.isPlain = true) (hb : b.isPlain = true)
    (hs : a.scalar? = some s) (ht : b.scalar? = some t) {op : Comparison} (hnull : op.isOrder = true → b.isNull = false) :
    s.satisfies? (Filter.operator op) t = some (op.holds a b) := by
  have horder := Value.compare?_of_plain ha hb hs ht
  have hloose := Value.looselyEquals_of_plain ha hb
  rw [horder] at hloose
  have hnothing : a.isNull = true → b.isNull = false → s.order? t = none := by
    intro hnulla hnullb
    rw [← horder]
    cases a <;> cases hnulla
    cases b <;> first | rfl | cases hnullb
  cases op with
  | equal | notEqual => simp [Filter.operator, Scalar.satisfies?, Comparison.holds, hloose, bne]
  | _ =>
    have hnullb := hnull rfl
    cases hnulla : a.isNull with
    | true => simp [Filter.operator, Scalar.satisfies?, Comparison.holds, hnulla, hnothing hnulla hnullb]
    | false =>
      simp only [Filter.operator, Scalar.satisfies?, Comparison.holds, hnulla, hnullb, horder]
      cases s.order? t with
      | none => rfl
      | some order => cases order <;> rfl

/-! ### Fields of stored records -/

/-- The datum that is read for a field; a missing one is null. -/
def fieldOf (document : Document) (key : String) : Bson := (OrderedMap.get? document (Percent.escape key)).getD .null

theorem isFieldName_escape (key : String) : isFieldName (Percent.escape key) = true := by
  have hpoint : '.' ∉ (Percent.escape key).toList := Percent.not_mem_escape (by decide) key
  have hdollar : '$' ∉ (Percent.escape key).toList := Percent.not_mem_escape (by decide) key
  simp [isFieldName, hpoint, hdollar]

theorem selects_onField (document : Document) (key operator : String) (operand : Bson) :
    selects document (Filter.onField key [(operator, operand)]) = meetsOne (fieldOf document key) operator operand :=
  selects_condition document (isFieldName_escape key) operator operand

section Stored

variable {record : Fields} {document : Document}

theorem ofValue_resolve (hstored : Document.ofFields record = .ok document) (key : String) :
    Bson.ofValue ((Operand.key key).resolve record) = .ok (fieldOf document key) := by
  have hfield := Bson.get?_ofFields hstored key
  rw [Operand.resolve, fieldOf]
  generalize OrderedMap.get? record key = value? at hfield ⊢
  generalize OrderedMap.get? document (Percent.escape key) = bson? at hfield ⊢
  cases hfield with
  | none => rfl
  | some hbson => exact hbson

theorem ofBson?_fieldOf (hstored : Document.ofFields record = .ok document) {key : String} {s : Scalar}
    (hplain : ((Operand.key key).resolve record).isPlain = true) (hs : ((Operand.key key).resolve record).scalar? = some s) :
    Scalar.ofBson? (fieldOf document key) = some s := by
  obtain ⟨bson, hbson, hscalar⟩ := Value.exists_ofValue_of_plain hplain hs
  obtain rfl := Except.ok.inj ((ofValue_resolve hstored key).symm.trans hbson)
  exact hscalar

theorem selects_compare (hstored : Document.ofFields record = .ok document) {key : String} {value : Value} {bson : Bson}
    {op : Comparison} (hfield : ((Operand.key key).resolve record).isPlain = true) (hvalue : value.isPlain = true)
    (hnull : op.isOrder = true → value.isNull = false) (hbson : Bson.ofValue value = .ok bson) :
    selects document (Filter.compare key op bson).document = some (op.holds ((Operand.key key).resolve record) value) := by
  obtain ⟨s, hs⟩ := Value.exists_scalar? hfield
  obtain ⟨t, ht⟩ := Value.exists_scalar? hvalue
  obtain ⟨form, hform, hscalar⟩ := Value.exists_ofValue_of_plain hvalue ht
  obtain rfl := Except.ok.inj (hform.symm.trans hbson)
  rw [Filter.document, selects_onField, meetsOne_scalar (ofBson?_fieldOf hstored hfield hs) hscalar,
    satisfies?_operator hfield hvalue hs ht hnull]

theorem isAmong?_of_plain {a : Value} {s : Scalar} (ha : a.isPlain = true) (hs : a.scalar? = some s) {values : List Value}
    (hvalues : ∀ value ∈ values, value.isPlain = true) {forms : List Bson} (hforms : Bson.ofValues values = .ok forms) :
    s.isAmong? forms = some (values.any fun value => value.looselyEquals a) := by
  rw [Bson.ofValues_eq_mapM, Outcome.mapM_eq_ok_iff] at hforms
  induction hforms with
  | nil => rfl
  | @cons value form values _ hform _ ih =>
    have hvalue := hvalues value List.mem_cons_self
    obtain ⟨t, ht⟩ := Value.exists_scalar? hvalue
    obtain ⟨bson, hbson, hscalar⟩ := Value.exists_ofValue_of_plain hvalue ht
    obtain rfl := Except.ok.inj (hbson.symm.trans hform)
    have hequal : (s.order? t == some .eq) = value.looselyEquals a := by
      rw [← Value.compare?_of_plain ha hvalue hs ht, ← Value.looselyEquals_of_plain ha hvalue]
      exact Value.looselyEquals_comm (Value.namesDistinct_of_isPlain hvalue) (Value.namesDistinct_of_isPlain ha)
    rw [Scalar.isAmong?_cons hscalar, ih fun value h => hvalues value (List.mem_cons_of_mem _ h), hequal]
    rfl

theorem meets_equal {item b : Value} (hitem : item.isPlain = true) {form : Bson} (hform : Bson.ofValue item = .ok form)
    (hb : b.isPlainOrList = true) {operand : Bson} (hoperand : Bson.ofValue b = .ok operand) :
    meets form [("$eq", operand)] = some (item.looselyEquals b) := by
  obtain ⟨s, hs⟩ := Value.exists_scalar? hitem
  obtain ⟨first, hfirst, hscalar⟩ := Value.exists_ofValue_of_plain hitem hs
  obtain rfl := Except.ok.inj (hfirst.symm.trans hform)
  by_cases hplain : b.isPlain = true
  · obtain ⟨t, ht⟩ := Value.exists_scalar? hplain
    obtain ⟨bson, hbson, hother⟩ := Value.exists_ofValue_of_plain hplain ht
    obtain rfl := Except.ok.inj (hbson.symm.trans hoperand)
    have hequal : s.satisfies? (Filter.operator .equal) t = some (Comparison.equal.holds item b) :=
      satisfies?_operator hitem hplain hs ht fun hnever => absurd hnever (by decide)
    rw [meets, meetsOne_scalar hscalar hother]
    exact hequal
  · cases b with
    | array values =>
      obtain ⟨forms, -, rfl⟩ := Outcome.map_eq_ok_iff.mp hoperand
      have hloose : item.looselyEquals (.array values) = false := by
        rw [Value.looselyEquals, Value.eqBy_of_isScalar (Value.isScalar_of_isPlain hitem), Value.looseScalar]
        cases item <;> rfl
      rw [meets, meetsOne, hscalar, Option.bind_some, if_pos rfl, hloose]
    | _ => exact absurd hb hplain

theorem anyElement_of_plain {b : Value} (hb : b.isPlainOrList = true) {operand : Bson} (hoperand : Bson.ofValue b = .ok operand)
    {items : List Value} (hitems : ∀ item ∈ items, item.isPlain = true) {forms : List Bson}
    (hforms : Bson.ofValues items = .ok forms) :
    anyElement (fun item => meets item [("$eq", operand)]) (.array forms) = some ((Value.array items).hasElement b) := by
  rw [Bson.ofValues_eq_mapM, Outcome.mapM_eq_ok_iff] at hforms
  induction hforms with
  | nil => rfl
  | @cons item form items _ hform _ ih =>
    have htest := meets_equal (hitems item List.mem_cons_self) hform hb hoperand
    have hrest := ih fun item h => hitems item (List.mem_cons_of_mem _ h)
    rw [@anyElement_cons (fun item => meets item [("$eq", operand)]) form _ htest, hrest]
    rfl

end Stored

end Documents

/-! ### Plain predicates -/

namespace Operand

def isPlain : Operand → Bool
  | key _ => true
  | literal value => value.isPlain

def isPlainOrList : Operand → Bool
  | key _ => true
  | literal value => value.isPlainOrList

def isNullLiteral : Operand → Bool
  | key _ => false
  | literal value => value.isNull

def areKeys : Operand → Operand → Bool
  | key _, key _ => true
  | _, _ => false

end Operand

/-- Whether literals are plain and null is not asked for its place. -/
def Comparison.comparesPlainly (op : Comparison) (lhs rhs : Operand) : Bool :=
  lhs.isPlain && rhs.isPlain && !(op.isOrder && (lhs.isNullLiteral || rhs.isNullLiteral))

namespace Predicate

mutual

/-- Whether a predicate has plain literals, lists of them in memberships only, no place for null and no text patterns. -/
def isPlain : Predicate → Bool
  | not inner => isPlain inner
  | compare op lhs rhs => op.comparesPlainly lhs rhs
  | elementOf element collection | notElementOf element collection => element.isPlainOrList && collection.isPlainOrList
  | between value low high =>
    Comparison.lessOrEqual.comparesPlainly low value && Comparison.lessOrEqual.comparesPlainly value high
  | notBetween value low high =>
    Comparison.lessThan.comparesPlainly value low && Comparison.greaterThan.comparesPlainly value high
  | pattern _ _ _ => false
  | all parts | any parts => arePlain parts
termination_by structural predicate => predicate

def arePlain : List Predicate → Bool
  | [] => true
  | part :: parts => isPlain part && arePlain parts
termination_by structural parts => parts

end

mutual

/-- Whether a comparison or a membership somewhere in a predicate relates two fields. -/
def relatesFields : Predicate → Bool
  | not inner => relatesFields inner
  | compare _ lhs rhs => lhs.areKeys rhs
  | elementOf element collection | notElementOf element collection => element.areKeys collection
  | between value low high => low.areKeys value || value.areKeys high
  | notBetween value low high => value.areKeys low || value.areKeys high
  | pattern _ _ _ => false
  | all parts | any parts => relateFields parts
termination_by structural predicate => predicate

def relateFields : List Predicate → Bool
  | [] => false
  | part :: parts => relatesFields part || relateFields parts
termination_by structural parts => parts

end

mutual

/-- The fields that a predicate reads other than for their elements. -/
def scalarKeys : Predicate → List String
  | not inner => scalarKeys inner
  | compare _ lhs rhs => lhs.keys ++ rhs.keys
  | elementOf element _ | notElementOf element _ => element.keys
  | between value low high => (low.keys ++ value.keys) ++ (value.keys ++ high.keys)
  | notBetween value low high => (value.keys ++ low.keys) ++ (value.keys ++ high.keys)
  | pattern _ key _ => [key]
  | all parts | any parts => scalarKeysOfList parts
termination_by structural predicate => predicate

def scalarKeysOfList : List Predicate → List String
  | [] => []
  | part :: parts => scalarKeys part ++ scalarKeysOfList parts
termination_by structural parts => parts

end

end Predicate

namespace Documents

/-! ### What has a filter -/

/-- A translation fails with the one failure if two fields are related and succeeds otherwise. -/
def Translates {α : Type} (outcome : Outcome α) (related : Bool) : Prop :=
  if related then outcome = .error Filter.relatesFields else ∃ a, outcome = .ok a

theorem Translates.map {α β : Type} {outcome : Outcome α} {related : Bool} (h : Translates outcome related) (f : α → β) :
    Translates (outcome.map f) related := by
  cases related with
  | true =>
    obtain rfl : outcome = .error Filter.relatesFields := h
    rfl
  | false =>
    obtain ⟨a, rfl⟩ := h
    exact ⟨f a, rfl⟩

theorem Translates.bind {α β : Type} {outcome : Outcome α} {next : α → Outcome β} {first second : Bool}
    (h : Translates outcome first) (hnext : ∀ a, Translates (next a) second) :
    Translates (outcome.bind next) (first || second) := by
  cases first with
  | true =>
    obtain rfl : outcome = .error Filter.relatesFields := h
    rfl
  | false =>
    obtain ⟨a, rfl⟩ := h
    exact hnext a

theorem translates_ofValue {value : Value} (h : value.isPlain = true) : Translates (Bson.ofValue value) false := by
  obtain ⟨s, hs⟩ := Value.exists_scalar? h
  obtain ⟨bson, hbson, -⟩ := Value.exists_ofValue_of_plain h hs
  exact ⟨bson, hbson⟩

theorem translates_ofValues {values : List Value} (h : ∀ value ∈ values, value.isPlain = true) :
    Translates (Bson.ofValues values) false := by
  rw [Bson.ofValues_eq_mapM]
  exact Outcome.exists_mapM_eq_ok fun value hvalue => translates_ofValue (h value hvalue)

theorem translates_ofPlainOrList {value : Value} (h : value.isPlainOrList = true) : Translates (Bson.ofValue value) false := by
  cases value with
  | array items => exact (translates_ofValues (List.all_eq_true.mp h)).map _
  | _ => exact translates_ofValue h

theorem translates_ofCompare {op : Comparison} {lhs rhs : Operand} (h : op.comparesPlainly lhs rhs = true) :
    Translates (Filter.ofCompare op lhs rhs) (lhs.areKeys rhs) := by
  simp only [Comparison.comparesPlainly, Bool.and_eq_true] at h
  obtain ⟨⟨hlhs, hrhs⟩, -⟩ := h
  cases lhs with
  | key k =>
    cases rhs with
    | key l => exact rfl
    | literal b => exact (translates_ofValue hrhs).map _
  | literal a =>
    cases rhs with
    | key l => exact (translates_ofValue hlhs).map _
    | literal b => exact ⟨_, rfl⟩

theorem translates_ofElement {element collection : Operand} (helement : element.isPlainOrList = true)
    (hcollection : collection.isPlainOrList = true) :
    Translates (Filter.ofElement element collection) (element.areKeys collection) ∧
      Translates (Filter.ofNoElement element collection) (element.areKeys collection) := by
  cases element with
  | key k =>
    cases collection with
    | key l => exact ⟨rfl, rfl⟩
    | literal value =>
      cases value with
      | array values =>
        have hforms := translates_ofValues (List.all_eq_true.mp hcollection)
        exact ⟨hforms.map _, hforms.map _⟩
      | _ => exact ⟨⟨_, rfl⟩, ⟨_, rfl⟩⟩
  | literal a =>
    cases collection with
    | key l =>
      have hform := translates_ofPlainOrList helement
      exact ⟨hform.map _, hform.map _⟩
    | literal b => exact ⟨⟨_, rfl⟩, ⟨_, rfl⟩⟩

mutual

theorem translates_ofPredicate (predicate : Predicate) (h : predicate.isPlain = true) :
    Translates (Filter.ofPredicate predicate) predicate.relatesFields := by
  cases predicate with
  | not inner => exact (translates_ofPredicate inner h).map _
  | compare op lhs rhs => exact translates_ofCompare h
  | elementOf element collection =>
    obtain ⟨helement, hcollection⟩ := Bool.and_eq_true_iff.mp h
    exact (translates_ofElement helement hcollection).1
  | notElementOf element collection =>
    obtain ⟨helement, hcollection⟩ := Bool.and_eq_true_iff.mp h
    exact (translates_ofElement helement hcollection).2
  | between value low high =>
    obtain ⟨hlow, hhigh⟩ := Bool.and_eq_true_iff.mp h
    exact (translates_ofCompare hlow).bind fun _ => (translates_ofCompare hhigh).map _
  | notBetween value low high =>
    obtain ⟨hlow, hhigh⟩ := Bool.and_eq_true_iff.mp h
    exact (translates_ofCompare hlow).bind fun _ => (translates_ofCompare hhigh).map _
  | pattern kind key text => cases h
  | all parts => exact (translates_ofPredicates parts h).map _
  | any parts => exact (translates_ofPredicates parts h).map _
termination_by structural predicate

theorem translates_ofPredicates (parts : List Predicate) (h : Predicate.arePlain parts = true) :
    Translates (Filter.ofPredicates parts) (Predicate.relateFields parts) := by
  cases parts with
  | nil => exact ⟨[], rfl⟩
  | cons part parts =>
    obtain ⟨hpart, hparts⟩ := Bool.and_eq_true_iff.mp h
    exact (translates_ofPredicate part hpart).bind fun _ => (translates_ofPredicates parts hparts).map _
termination_by structural parts

end

/-! ### What filters select -/

theorem selects_const (document : Document) (flag : Bool) : selects document (Filter.const flag).document = some flag := by
  rw [Filter.document, selects_single]
  rfl

theorem selects_joined (document : Document) {name : String} {parts : List Filter} {answers : List Bool}
    (h : selectsEach document (Filter.documents parts) = some answers) :
    selects document [(name, .array (Filter.documents parts))] = joined? name answers := by
  rw [selects_single, selectsClause, h, Option.bind_some]

theorem selectsEach_cons {document : Document} {part : Filter} {parts : List Filter} {answer : Bool} {answers : List Bool}
    (hpart : selects document part.document = some answer) (hparts : selectsEach document (Filter.documents parts) = some answers) :
    selectsEach document (Filter.documents (part :: parts)) = some (answer :: answers) := by
  rw [Filter.documents, selectsEach, hpart, Option.bind_some, hparts, Option.map_some]

theorem selectsEach_nil (document : Document) : selectsEach document (Filter.documents []) = some [] := rfl

section Meaning

variable {record : Fields} {document : Document} (hstored : Document.ofFields record = .ok document)

include hstored

theorem selects_ofCompare {op : Comparison} {lhs rhs : Operand} (hplain : op.comparesPlainly lhs rhs = true)
    (hreads : ∀ key ∈ lhs.keys ++ rhs.keys, ((Operand.key key).resolve record).isPlain = true) {filter : Filter}
    (h : Filter.ofCompare op lhs rhs = .ok filter) :
    selects document filter.document = some (op.holds (lhs.resolve record) (rhs.resolve record)) := by
  simp only [Comparison.comparesPlainly, Bool.and_eq_true, Bool.not_eq_true', Bool.and_eq_false_iff, Bool.or_eq_false_iff] at hplain
  obtain ⟨⟨hlhs, hrhs⟩, horder⟩ := hplain
  cases lhs with
  | key k =>
    have hfield := hreads k List.mem_cons_self
    cases rhs with
    | key l => cases h
    | literal b =>
      obtain ⟨form, hform, rfl⟩ := Outcome.map_eq_ok_iff.mp h
      refine selects_compare hstored hfield hrhs ?_ hform
      intro hisOrder
      rcases horder with hnot | hnull
      · rw [hisOrder] at hnot
        cases hnot
      · exact hnull.2
  | literal a =>
    cases rhs with
    | key l =>
      have hfield := hreads l List.mem_cons_self
      obtain ⟨form, hform, rfl⟩ := Outcome.map_eq_ok_iff.mp h
      rw [selects_compare hstored hfield hlhs ?_ hform,
        op.holds_flipped (Value.namesDistinct_of_isPlain hlhs) (Value.namesDistinct_of_isPlain hfield)]
      · rfl
      intro hisOrder
      rw [Comparison.isOrder_flipped] at hisOrder
      rcases horder with hnot | hnull
      · rw [hisOrder] at hnot
        cases hnot
      · exact hnull.1
    | literal b =>
      obtain rfl := Except.ok.inj h
      exact selects_const document _

theorem meetsOne_list {key : String} (hfield : ((Operand.key key).resolve record).isPlain = true) {values : List Value}
    (hvalues : ∀ value ∈ values, value.isPlain = true) {forms : List Bson} (hforms : Bson.ofValues values = .ok forms) :
    meetsOne (fieldOf document key) "$in" (.array forms) =
        some ((Value.array values).hasElement ((Operand.key key).resolve record)) ∧
      meetsOne (fieldOf document key) "$nin" (.array forms) =
        some !(Value.array values).hasElement ((Operand.key key).resolve record) := by
  obtain ⟨s, hs⟩ := Value.exists_scalar? hfield
  have hamong := isAmong?_of_plain hfield hs hvalues hforms
  constructor
  · rw [meetsOne, ofBson?_fieldOf hstored hfield hs, Option.bind_some, hamong]
    rfl
  · rw [meetsOne, ofBson?_fieldOf hstored hfield hs, Option.bind_some, hamong]
    rfl

theorem anyElement_fieldOf {key : String} (hlist : ((Operand.key key).resolve record).isPlainOrList = true) {value : Value}
    (hvalue : value.isPlainOrList = true) {form : Bson} (hform : Bson.ofValue value = .ok form) :
    anyElement (fun item => meets item [("$eq", form)]) (fieldOf document key) =
      some (((Operand.key key).resolve record).hasElement value) := by
  have hfield := ofValue_resolve hstored key
  generalize (Operand.key key).resolve record = field at hfield hlist ⊢
  cases field with
  | array items =>
    obtain ⟨forms, hforms, harray⟩ := Outcome.map_eq_ok_iff.mp hfield
    rw [← harray]
    exact anyElement_of_plain hvalue hform (List.all_eq_true.mp hlist) hforms
  | decimal d =>
    rw [Bson.ofValue_decimal, Bson.ofDecimal] at hfield
    split at hfield
    · rw [← Except.ok.inj hfield]
      rfl
    · cases hfield
  | date | time | binary | object => cases hlist
  | _ =>
    rw [← Except.ok.inj hfield]
    rfl

theorem selects_ofElement {element collection : Operand} (helement : element.isPlainOrList = true)
    (hcollection : collection.isPlainOrList = true)
    (hlists : ∀ key, ((Operand.key key).resolve record).isPlainOrList = true)
    (hreads : ∀ key ∈ element.keys, ((Operand.key key).resolve record).isPlain = true) :
    (∀ filter, Filter.ofElement element collection = .ok filter →
      selects document filter.document = some ((collection.resolve record).hasElement (element.resolve record))) ∧
    ∀ filter, Filter.ofNoElement element collection = .ok filter →
      selects document filter.document = some !(collection.resolve record).hasElement (element.resolve record) := by
  cases element with
  | key k =>
    have hfield := hreads k List.mem_cons_self
    cases collection with
    | key l => exact ⟨nofun, nofun⟩
    | literal value =>
      cases value with
      | array values =>
        have hvalues := List.all_eq_true.mp hcollection
        constructor
        · intro filter h
          obtain ⟨forms, hforms, rfl⟩ := Outcome.map_eq_ok_iff.mp h
          rw [Filter.document, selects_onField, (meetsOne_list hstored hfield hvalues hforms).1]
          rfl
        · intro filter h
          obtain ⟨forms, hforms, rfl⟩ := Outcome.map_eq_ok_iff.mp h
          rw [Filter.document, selects_onField, (meetsOne_list hstored hfield hvalues hforms).2]
          rfl
      | _ =>
        constructor
        · intro filter h
          obtain rfl := Except.ok.inj h
          exact selects_const document false
        · intro filter h
          obtain rfl := Except.ok.inj h
          exact selects_const document true
  | literal a =>
    cases collection with
    | key l =>
      constructor
      · intro filter h
        obtain ⟨form, hform, rfl⟩ := Outcome.map_eq_ok_iff.mp h
        rw [Filter.document, Filter.elementCondition, selects_onField, meetsOne, if_neg (by decide), if_pos rfl]
        exact anyElement_fieldOf hstored (hlists l) helement hform
      · intro filter h
        obtain ⟨form, hform, rfl⟩ := Outcome.map_eq_ok_iff.mp h
        rw [Filter.document, Filter.elementCondition, selects_onField, meetsOne, if_pos rfl, meets, meetsOne, if_neg (by decide),
          if_pos rfl, anyElement_fieldOf hstored (hlists l) helement hform]
        rfl
    | literal b =>
      constructor
      · intro filter h
        obtain rfl := Except.ok.inj h
        exact selects_const document _
      · intro filter h
        obtain rfl := Except.ok.inj h
        exact selects_const document _

end Meaning

theorem all_holds (record : Fields) (parts : List Predicate) :
    (parts.map (Predicate.holds record)).all id = Predicate.allHold record parts := by
  induction parts with
  | nil => rfl
  | cons part parts ih => rw [List.map_cons, List.all_cons, ih, Predicate.allHold, id]

theorem any_holds (record : Fields) (parts : List Predicate) :
    (parts.map (Predicate.holds record)).any id = Predicate.anyHolds record parts := by
  induction parts with
  | nil => rfl
  | cons part parts ih => rw [List.map_cons, List.any_cons, ih, Predicate.anyHolds, id]

section Meaning

variable {record : Fields} {document : Document}

mutual

/-- A filter selects a stored record exactly when its predicate holds of the record. -/
theorem selects_ofPredicate (hstored : Document.ofFields record = .ok document)
    (hlists : ∀ key, ((Operand.key key).resolve record).isPlainOrList = true)
    (predicate : Predicate) (hplain : predicate.isPlain = true)
    (hreads : ∀ key ∈ predicate.scalarKeys, ((Operand.key key).resolve record).isPlain = true) {filter : Filter}
    (h : Filter.ofPredicate predicate = .ok filter) :
    selects document filter.document = some (predicate.holds record) := by
  cases predicate with
  | not inner =>
    obtain ⟨part, hpart, rfl⟩ := Outcome.map_eq_ok_iff.mp h
    have hinner := selects_ofPredicate hstored hlists inner hplain hreads hpart
    have heach := selectsEach_cons hinner (selectsEach_nil document)
    rw [Filter.document]
    refine (selects_joined document heach).trans ?_
    simp [joined?, Predicate.holds]
  | compare op lhs rhs => exact selects_ofCompare hstored hplain hreads h
  | elementOf element collection =>
    obtain ⟨helement, hcollection⟩ := Bool.and_eq_true_iff.mp hplain
    exact (selects_ofElement hstored helement hcollection hlists hreads).1 filter h
  | notElementOf element collection =>
    obtain ⟨helement, hcollection⟩ := Bool.and_eq_true_iff.mp hplain
    exact (selects_ofElement hstored helement hcollection hlists hreads).2 filter h
  | between value low high =>
    obtain ⟨hlow, hhigh⟩ := Bool.and_eq_true_iff.mp hplain
    obtain ⟨lower, hlower, hrest⟩ := Outcome.bind_eq_ok_iff.mp h
    obtain ⟨upper, hupper, hfilter⟩ := Outcome.bind_eq_ok_iff.mp hrest
    obtain rfl := Except.ok.inj hfilter
    have hfirst := selects_ofCompare hstored hlow (fun key hkey => hreads key (List.mem_append_left _ hkey)) hlower
    have hsecond := selects_ofCompare hstored hhigh (fun key hkey => hreads key (List.mem_append_right _ hkey)) hupper
    have heach := selectsEach_cons hfirst (selectsEach_cons hsecond (selectsEach_nil document))
    rw [Filter.document, selects_joined document heach]
    simp [joined?, Predicate.holds]
  | notBetween value low high =>
    obtain ⟨hlow, hhigh⟩ := Bool.and_eq_true_iff.mp hplain
    obtain ⟨lower, hlower, hrest⟩ := Outcome.bind_eq_ok_iff.mp h
    obtain ⟨upper, hupper, hfilter⟩ := Outcome.bind_eq_ok_iff.mp hrest
    obtain rfl := Except.ok.inj hfilter
    have hfirst := selects_ofCompare hstored hlow (fun key hkey => hreads key (List.mem_append_left _ hkey)) hlower
    have hsecond := selects_ofCompare hstored hhigh (fun key hkey => hreads key (List.mem_append_right _ hkey)) hupper
    have heach := selectsEach_cons hfirst (selectsEach_cons hsecond (selectsEach_nil document))
    rw [Filter.document, selects_joined document heach]
    simp [joined?, Predicate.holds]
  | pattern kind key text => cases hplain
  | all parts =>
    obtain ⟨filters, hfilters, rfl⟩ := Outcome.map_eq_ok_iff.mp h
    obtain ⟨hempty, heach⟩ := selects_ofPredicates hstored hlists parts hplain hreads hfilters
    rw [hempty, Predicate.holds, ← all_holds]
    cases parts with
    | nil => rfl
    | cons part parts =>
      rw [List.isEmpty_cons, if_neg Bool.false_ne_true, Filter.document, selects_joined document heach]
      rfl
  | any parts =>
    obtain ⟨filters, hfilters, rfl⟩ := Outcome.map_eq_ok_iff.mp h
    obtain ⟨hempty, heach⟩ := selects_ofPredicates hstored hlists parts hplain hreads hfilters
    rw [hempty, Predicate.holds, ← any_holds]
    cases parts with
    | nil => rfl
    | cons part parts =>
      rw [List.isEmpty_cons, if_neg Bool.false_ne_true, Filter.document, selects_joined document heach]
      rfl
termination_by structural predicate

theorem selects_ofPredicates (hstored : Document.ofFields record = .ok document)
    (hlists : ∀ key, ((Operand.key key).resolve record).isPlainOrList = true)
    (parts : List Predicate) (hplain : Predicate.arePlain parts = true)
    (hreads : ∀ key ∈ Predicate.scalarKeysOfList parts, ((Operand.key key).resolve record).isPlain = true)
    {filters : List Filter} (h : Filter.ofPredicates parts = .ok filters) :
    filters.isEmpty = parts.isEmpty ∧
      selectsEach document (Filter.documents filters) = some (parts.map (Predicate.holds record)) := by
  cases parts with
  | nil =>
    obtain rfl := Except.ok.inj h
    exact ⟨rfl, rfl⟩
  | cons part parts =>
    obtain ⟨hpart, hparts⟩ := Bool.and_eq_true_iff.mp hplain
    obtain ⟨first, hfirst, hrest⟩ := Outcome.bind_eq_ok_iff.mp h
    obtain ⟨rest, hothers, hfilters⟩ := Outcome.bind_eq_ok_iff.mp hrest
    obtain rfl := Except.ok.inj hfilters
    have hone := selects_ofPredicate hstored hlists part hpart (fun key hkey => hreads key (List.mem_append_left _ hkey)) hfirst
    obtain ⟨-, heach⟩ := selects_ofPredicates hstored hlists parts hparts (fun key hkey => hreads key (List.mem_append_right _ hkey)) hothers
    exact ⟨rfl, selectsEach_cons hone heach⟩
termination_by structural parts

end

theorem exists_ofFields (h : ∀ entry ∈ record, entry.2.isPlainOrList = true) :
    ∃ document, Document.ofFields record = .ok document := by
  rw [Document.ofFields, Bson.ofFields_eq_mapM]
  exact Outcome.exists_mapM_eq_ok fun entry hentry => (translates_ofPlainOrList (h entry hentry)).map _

theorem resolve_of_forall {test : Value → Bool} (hnull : test .null = true) {key : String}
    (h : ∀ value, (key, value) ∈ record → test value = true) : test ((Operand.key key).resolve record) = true := by
  rw [Operand.resolve]
  cases hfound : OrderedMap.get? record key with
  | none => exact hnull
  | some value => exact h value (OrderedMap.mem_of_get? hfound)

end Meaning

/-- A plain predicate has a filter unless it relates two fields somewhere, and the filter selects the stored form of a record exactly when the predicate holds of it. The fields of the record are plain, or lists of plain values that the predicate reads for their elements only. -/
theorem ofPredicate_agrees {predicate : Predicate} (hplain : predicate.isPlain = true) :
    ((∃ failure, Filter.ofPredicate predicate = .error failure) ↔ predicate.relatesFields = true) ∧
      ∀ filter, Filter.ofPredicate predicate = .ok filter →
        ∀ record : Fields, (∀ entry ∈ record, entry.2.isPlainOrList = true ∧
            (entry.1 ∈ predicate.scalarKeys → entry.2.isPlain = true)) →
          ∃ document, Document.ofFields record = .ok document ∧
            selects document filter.document = some (predicate.holds record) := by
  constructor
  · have htranslates := translates_ofPredicate predicate hplain
    cases hrelates : predicate.relatesFields with
    | true =>
      rw [hrelates] at htranslates
      exact ⟨fun _ => rfl, fun _ => ⟨_, htranslates⟩⟩
    | false =>
      rw [hrelates] at htranslates
      obtain ⟨filter, hfilter⟩ := htranslates
      refine ⟨?_, fun hnever => by cases hnever⟩
      rintro ⟨failure, hfails⟩
      rw [hfilter] at hfails
      cases hfails
  · intro filter h record hrecord
    obtain ⟨document, hstored⟩ := exists_ofFields fun entry hentry => (hrecord entry hentry).1
    refine ⟨document, hstored, selects_ofPredicate hstored ?_ predicate hplain ?_ h⟩
    · exact fun key => resolve_of_forall rfl fun value hvalue => (hrecord _ hvalue).1
    · exact fun key hkey => resolve_of_forall rfl fun value hvalue => (hrecord _ hvalue).2 hkey

/-- A predicate with a literal on the left, null in a list, a negation and an empty disjunction, on a field whose name is escaped. -/
def mixed : Predicate :=
  .all [.not (.compare .lessOrEqual (.literal (.decimal ⟨25, 1⟩)) (.key "a.b")), .elementOf (.literal .null) (.key "tags"),
    .notBetween (.key "n") (.literal (.integer 2)) (.literal (.number ⟨0x4008000000000000⟩)),
    .notElementOf (.key "gone") (.literal (.array [.integer 7])), .not (.any [])]

theorem mixed_agrees :
    mixed.isPlain = true ∧ ∃ filter document, Filter.ofPredicate mixed = .ok filter ∧
      Document.ofFields [("a.b", .integer 2), ("tags", .array [.string "x", .null]), ("n", .decimal ⟨199, 2⟩)] = .ok document ∧
      selects document filter.document = some true := by
  have hplain : mixed.isPlain = true := by
    decide
  obtain ⟨-, hselects⟩ := ofPredicate_agrees hplain
  obtain ⟨filter, hfilter⟩ : ∃ filter, Filter.ofPredicate mixed = .ok filter := ⟨_, rfl⟩
  have hrecord : ∀ entry ∈ [("a.b", Value.integer 2), ("tags", .array [.string "x", .null]), ("n", .decimal ⟨199, 2⟩)],
      entry.2.isPlainOrList = true ∧ (entry.1 ∈ mixed.scalarKeys → entry.2.isPlain = true) := by
    decide
  obtain ⟨document, hstored, hanswer⟩ := hselects filter hfilter _ hrecord
  have hholds : mixed.holds [("a.b", .integer 2), ("tags", .array [.string "x", .null]), ("n", .decimal ⟨199, 2⟩)] = true := by
    decide
  exact ⟨hplain, filter, document, hfilter, hstored, hanswer.trans (congrArg some hholds)⟩

end Documents

end ObjectStore
