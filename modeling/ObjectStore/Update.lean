import ObjectStore.Failure
import ObjectStore.Value.Order

/-!
# Updates

A mutation of one field, computed from the current value of the field alone. A missing field and an explicit null are the same starting point.
-/

namespace ObjectStore

inductive Update where
  | set (value : Value)
  | unset
  | increment (delta : Value)
  | multiply (factor : Value)
  | max (value : Value)
  | min (value : Value)
  /-- Appends an element and makes the array if need be. -/
  | push (value : Value)
  /-- Removes every element that equals one of the listed values. -/
  | removeAll (values : List Value)
  | popFirst
  | popLast
deriving Inhabited

abbrev Updates := OrderedMap Update

inductive Arithmetic where
  | add | multiply
deriving DecidableEq

namespace Arithmetic

def onInt : Arithmetic → Int → Int → Int
  | add, a, b => a + b
  | multiply, a, b => a * b

def onDouble : Arithmetic → Double → Double → Double
  | add, a, b => a.add b
  | multiply, a, b => a.mul b

def onDecimal : Arithmetic → Decimal → Decimal → Decimal
  | add, a, b => a.add b
  | multiply, a, b => a.mul b

/-- Exact arithmetic, which infinities and NaNs have no part in. -/
def decimals (op : Arithmetic) (a b : Value) : Outcome Value :=
  match a.toDecimal?, b.toDecimal? with
  | some x, some y => .ok (.decimal (op.onDecimal x y))
  | _, _ => .error (.unsupportedOperation "non-finite float in decimal arithmetic")

def operand (value : Value) : Outcome Value :=
  if value.isNumeric then .ok value
  else .error (.unsupportedType value.kind "arithmetic needs a numeric operand")

/-- Arithmetic that keeps the wider kind of its operands: integers widen to numbers and numbers to decimals. Integers that overflow widen to a decimal. -/
def apply (op : Arithmetic) (a b : Value) : Outcome Value := do
  let a ← operand a
  let b ← operand b
  match a, b with
  | .integer m, .integer n =>
    let result := op.onInt m.toInt n.toInt
    match int64? result with
    | some n => .ok (.integer n)
    | none => op.decimals a b
  | .decimal _, _ | _, .decimal _ => op.decimals a b
  | _, _ => .ok (.number (op.onDouble (a.toDouble?.getD Double.nan) (b.toDouble?.getD Double.nan)))

end Arithmetic

namespace Update

def operand? : Update → Option Value
  | set value | increment value | multiply value | max value | min value | push value => some value
  | unset | removeAll _ | popFirst | popLast => none

/-- Zero of the kind of a factor. -/
def zeroLike : Value → Value
  | .number _ => .number (Double.zero false)
  | .decimal _ => .decimal (Decimal.ofInt 0)
  | _ => .integer 0

def notAnArray (operator : String) (value : Value) : Failure :=
  .unsupportedOperation (operator ++ " on a " ++ value.kind.name ++ " field")

/-- The current value, or the given one unless the current value stands in a wanted order to it. -/
def keepIf (wanted : Ordering → Bool) (current value : Value) : Value :=
  match current.compare? value with
  | some order => if wanted order then current else value
  | none => value

/-- Changes an array; a missing field stays missing. -/
def onArray (operator : String) (change : List Value → List Value) : Option Value → Outcome (Option Value)
  | none => .ok none
  | some (.array items) => .ok (some (.array (change items)))
  | some other => .error (notAnArray operator other)

/-- The new value of a field from its present, non-null value. -/
def applyTo : Update → Option Value → Outcome (Option Value)
  | set value, _ => .ok (some value)
  | unset, _ => .ok none
  | increment delta, none => (Arithmetic.operand delta).map some
  | increment delta, some current => (Arithmetic.add.apply current delta).map some
  | multiply factor, none => do
    let factor ← Arithmetic.operand factor
    (Arithmetic.multiply.apply (zeroLike factor) factor).map some
  | multiply factor, some current => (Arithmetic.multiply.apply current factor).map some
  | max value, none => .ok (some value)
  | max value, some current => .ok (some (keepIf (· != .lt) current value))
  | min value, none => .ok (some value)
  | min value, some current => .ok (some (keepIf (· != .gt) current value))
  | push value, none => .ok (some (.array [value]))
  | push value, current => onArray "push" (· ++ [value]) current
  | removeAll values, current =>
    onArray "removeAll" (List.filter fun item => !values.any fun value => value.looselyEquals item) current
  | popFirst, current => onArray "pop" (List.drop 1) current
  | popLast, current => onArray "pop" List.dropLast current

/-- The new value of a field; none is an absent one. -/
def apply (update : Update) (current : Option Value) : Outcome (Option Value) :=
  update.applyTo (current.filter fun value => !value.isNull)

end Update

namespace Updates

/-- Applies every update to its field of a record. The first failure counts. -/
def applyTo (updates : Updates) (record : Fields) : Outcome Fields :=
  updates.foldlM (fun record (key, update) => do
    let value ← update.apply (OrderedMap.get? record key)
    return OrderedMap.put record key value) record

end Updates

end ObjectStore
