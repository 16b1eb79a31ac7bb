import ObjectStore.Bson
import ObjectStore.Proofs.Number.Rational

/-!
# What a filter document selects

The meaning that a document database gives to a filter, on fields that are scalars or are arrays and asked for their elements only. A missing field is read as null. Two data are ordered if they are of one class, and numbers of all kinds are one class. Operators, clauses and data outside of that have no answer here.
-/

namespace ObjectStore

namespace Documents

/-- A datum as the database compares it. -/
inductive Scalar where
  | null
  | boolean (flag : Bool)
  | text (text : String)
  | number (q : ℚ)
  | instant (millis : Int)

namespace Scalar

def ofBson? : Bson → Option Scalar
  | .null => some null
  | .boolean flag => some (boolean flag)
  | .string string => some (text string)
  | .int32 n => some (number n.toInt)
  | .int64 n => some (number n.toInt)
  | .double x => if x.isFinite then some (number x.toRat) else none
  | .decimal128 d => d.toDecimal?.map fun e => number e.toRat
  | .instant millis => some (instant millis)
  | _ => none

/-- The order of two data of one class. -/
def order? : Scalar → Scalar → Option Ordering
  | null, null => some .eq
  | boolean a, boolean b => some (Ord.compare a b)
  | text a, text b => some (Ord.compare a b)
  | number a, number b => some (cmp a b)
  | instant a, instant b => some (Ord.compare a b)
  | _, _ => none

/-- What an operator says of a field and its operand. -/
def satisfies? (operator : String) (field operand : Scalar) : Option Bool :=
  let order := field.order? operand
  match operator with
  | "$eq" => some (order == some .eq)
  | "$ne" => some (order != some .eq)
  | "$lt" => some (order == some .lt)
  | "$gt" => some (order == some .gt)
  | "$lte" => some (order == some .lt || order == some .eq)
  | "$gte" => some (order == some .gt || order == some .eq)
  | _ => none

/-- Whether a field equals one of the data of a list. -/
def isAmong? (field : Scalar) (operands : List Bson) : Option Bool :=
  (operands.mapM ofBson?).map fun operands => operands.any fun operand => field.order? operand == some .eq

theorem order?_swap (a b : Scalar) : b.order? a = (a.order? b).map Ordering.swap := by
  cases a with
  | null => cases b <;> rfl
  | boolean x =>
    cases b with
    | boolean y => exact congrArg some Std.OrientedOrd.eq_swap
    | _ => rfl
  | text x =>
    cases b with
    | text y => exact congrArg some Std.OrientedOrd.eq_swap
    | _ => rfl
  | number p =>
    cases b with
    | number q => exact congrArg some (cmp_swap p q).symm
    | _ => rfl
  | instant m =>
    cases b with
    | instant n => exact congrArg some Std.OrientedOrd.eq_swap
    | _ => rfl

theorem isAmong?_cons {field operand : Scalar} {bson : Bson} (h : ofBson? bson = some operand) (operands : List Bson) :
    field.isAmong? (bson :: operands) = (field.isAmong? operands).map fun found => field.order? operand == some .eq || found := by
  rw [isAmong?, isAmong?, List.mapM_cons, h]
  cases operands.mapM ofBson? <;> rfl

end Scalar

/-- Both of two answers, if there are two. -/
def both : Option Bool → Option Bool → Option Bool
  | some a, some b => some (a && b)
  | _, _ => none

@[simp] theorem both_true (answer : Option Bool) : both answer (some true) = answer := by
  cases answer <;> simp [both]

/-- Whether an element of an array passes a test. Anything but an array has no elements. -/
def anyElement (test : Bson → Option Bool) : Bson → Option Bool
  | .array items => (items.mapM test).map fun results => results.any id
  | _ => some false

theorem anyElement_cons {test : Bson → Option Bool} {item : Bson} {found : Bool} (h : test item = some found)
    (items : List Bson) : anyElement test (.array (item :: items)) = (anyElement test (.array items)).map (found || ·) := by
  rw [anyElement, anyElement, List.mapM_cons, h]
  cases items.mapM test <;> rfl

mutual

/-- Whether a field meets every condition of a document of operators. -/
def meets (field : Bson) : List (String × Bson) → Option Bool
  | [] => none
  | [(operator, operand)] => meetsOne field operator operand
  | (operator, operand) :: conditions => both (meetsOne field operator operand) (meets field conditions)
termination_by structural conditions => conditions

def meetsOne (field : Bson) (operator : String) : Bson → Option Bool
  | .document conditions =>
    if operator = "$not" then (meets field conditions).map (!·)
    else if operator = "$elemMatch" then anyElement (fun item => meets item conditions) field
    else none
  | .array operands =>
    -- a scalar equals no array
    (Scalar.ofBson? field).bind fun field =>
      if operator = "$eq" then some false
      else if operator = "$in" then field.isAmong? operands
      else if operator = "$nin" then (field.isAmong? operands).map (!·)
      else none
  | operand =>
    (Scalar.ofBson? field).bind fun field => (Scalar.ofBson? operand).bind fun operand => field.satisfies? operator operand
termination_by structural operand => operand

end

/-- A scalar is compared with scalars, whatever the operator. -/
theorem meetsOne_scalar {field operand : Bson} {s t : Scalar} (hfield : Scalar.ofBson? field = some s)
    (hoperand : Scalar.ofBson? operand = some t) (operator : String) :
    meetsOne field operator operand = s.satisfies? operator t := by
  cases operand with
  | array | document => cases hoperand
  | _ => rw [meetsOne, hfield, Option.bind_some, hoperand, Option.bind_some] <;> simp

/-- Whether a name is that of a field and no operator or path. -/
def isFieldName (name : String) : Bool := !name.toList.contains '.' && !name.toList.contains '$'

/-- What a clause with several filters makes of their answers. -/
def joined? (name : String) (answers : List Bool) : Option Bool :=
  if answers.isEmpty then none
  else
    match name with
    | "$and" => some (answers.all id)
    | "$or" => some (answers.any id)
    | "$nor" => some (!answers.any id)
    | _ => none

mutual

/-- Whether a document is selected by every clause of a filter. -/
def selects (document : Document) : List (String × Bson) → Option Bool
  | [] => some true
  | (name, clause) :: clauses => both (selectsClause document name clause) (selects document clauses)
termination_by structural clauses => clauses

def selectsClause (document : Document) (name : String) : Bson → Option Bool
  | .array filters => (selectsEach document filters).bind (joined? name)
  | .boolean flag => if name = "$expr" then some flag else none
  | .document conditions =>
    if isFieldName name then meets ((OrderedMap.get? document name).getD .null) conditions else none
  | _ => none
termination_by structural clause => clause

def selectsEach (document : Document) : List Bson → Option (List Bool)
  | [] => some []
  | .document clauses :: filters =>
    (selects document clauses).bind fun first => (selectsEach document filters).map fun rest => first :: rest
  | _ :: _ => none
termination_by structural filters => filters

end

theorem selects_single (document : Document) (name : String) (clause : Bson) :
    selects document [(name, clause)] = selectsClause document name clause := by
  rw [selects, selects, both_true]

theorem selects_condition (document : Document) {name : String} (hname : isFieldName name = true) (operator : String)
    (operand : Bson) : selects document [(name, .document [(operator, operand)])] =
      meetsOne ((OrderedMap.get? document name).getD .null) operator operand := by
  rw [selects_single, selectsClause, if_pos hname, meets]

end Documents

end ObjectStore
