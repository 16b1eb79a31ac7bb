import ObjectStore.Value

/-!
# Order and equality of values

Values of one kind are ordered as their contents are, and numbers are ordered as numbers whatever their kind. Two equalities are built on one traversal of arrays and objects: the structural one keeps the numeric kinds apart, the loose one compares numbers as numbers.
-/

namespace ObjectStore

namespace Value

/-- The order of numbers of any kind: exact while both are finite, and that of doubles otherwise. -/
def compareNumbers? (a b : Value) : Option Ordering :=
  match a.toDecimal?, b.toDecimal? with
  | some x, some y => some (x.compare y)
  | _, _ =>
    match a.toDouble?, b.toDouble? with
    | some x, some y => x.compare? y
    | _, _ => none

/-- The order of two values. Values of unrelated kinds have none, nor do arrays and objects. -/
def compare? : Value → Value → Option Ordering
  | null, null => some .eq
  | boolean a, boolean b => some (Ord.compare a b)
  | string a, string b => some (Ord.compare a b)
  | integer a, integer b => some (Ord.compare a.toInt b.toInt)
  | number a, number b => a.compare? b
  | timestamp a, timestamp b => some (a.compare b)
  | date a, date b => some (a.compare b)
  | time a, time b => some (a.compare b)
  | binary a, binary b => some (Ord.compare a b)
  | a, b => if a.isNumeric && b.isNumeric then compareNumbers? a b else none

/-- Equality within one kind: doubles by their bits, with all NaNs alike, and decimals by their number. -/
def sameScalar : Value → Value → Bool
  | null, null => true
  | boolean a, boolean b => a == b
  | string a, string b => a == b
  | integer a, integer b => a == b
  | number a, number b => a.canonicalBits == b.canonicalBits
  | decimal a, decimal b => a.same b
  | timestamp a, timestamp b => a == b
  | date a, date b => a == b
  | time a, time b => a == b
  | binary a, binary b => a == b
  | _, _ => false

/-- Equality that tells numbers by their order alone. -/
def looseScalar (a b : Value) : Bool :=
  if a.isNumeric && b.isNumeric then compare? a b == some .eq else sameScalar a b

mutual

/-- Equality of values over an equality of scalars: arrays element by element, objects field by field in any order. -/
def eqBy (scalar : Value → Value → Bool) : Value → Value → Bool
  | array xs, array ys => itemsEqBy scalar xs ys
  | object fs, object gs => fs.length == gs.length && fieldsEqBy scalar fs gs
  | a, b => scalar a b
termination_by structural a => a

def itemsEqBy (scalar : Value → Value → Bool) : List Value → List Value → Bool
  | [], [] => true
  | x :: xs, y :: ys => eqBy scalar x y && itemsEqBy scalar xs ys
  | _, _ => false
termination_by structural xs => xs

def fieldsEqBy (scalar : Value → Value → Bool) : List (String × Value) → List (String × Value) → Bool
  | [], _ => true
  | (key, x) :: fs, gs =>
    (match OrderedMap.get? gs key with
      | some y => eqBy scalar x y
      | none => false) && fieldsEqBy scalar fs gs
termination_by structural fs => fs

end

def same (a b : Value) : Bool := eqBy sameScalar a b

/-- Equality that ignores the numeric kind, at every depth. -/
def looselyEquals (a b : Value) : Bool := eqBy looseScalar a b

/-- The first of each group of structurally equal values, in order. -/
def distinct (values : List Value) : List Value :=
  (values.foldl (fun kept value => if kept.any (same value) then kept else value :: kept) []).reverse

instance : BEq Value := ⟨same⟩

end Value

end ObjectStore
