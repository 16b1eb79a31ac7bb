import ObjectStore.Proofs.OrderedMap
import ObjectStore.Proofs.Relational.Like

/-!
# What conditions mean on a row

SQL has three truth values, and a comparison with null gives the third. This module says what each condition of the library evaluates to on a row, by the rules that every server follows. Only two of them may surprise: `IS DISTINCT FROM` and `IS NOT TRUE` never give the third value, and a list of alternatives is the disjunction of comparisons with its members.

What a server does beyond that, containment of JSON documents, is a parameter.
-/

namespace ObjectStore

namespace Relational

/-- A truth value of SQL. -/
inductive Truth where
  | yes | no
  /-- What comes of comparing null. -/
  | unknown
deriving DecidableEq

namespace Truth

def ofBool : Bool → Truth
  | true => yes
  | false => no

/-- Whether a row is selected. -/
def isTrue : Truth → Bool
  | yes => true
  | no | unknown => false

def and : Truth → Truth → Truth
  | no, _ | _, no => no
  | yes, yes => yes
  | _, _ => unknown

def or : Truth → Truth → Truth
  | yes, _ | _, yes => yes
  | no, no => no
  | _, _ => unknown

def all (parts : List Truth) : Truth := parts.foldr and yes

def any (parts : List Truth) : Truth := parts.foldr or no

@[simp] theorem isTrue_ofBool (flag : Bool) : (ofBool flag).isTrue = flag := by
  cases flag <;> rfl

@[simp] theorem isTrue_and (a b : Truth) : (a.and b).isTrue = (a.isTrue && b.isTrue) := by
  cases a <;> cases b <;> rfl

@[simp] theorem isTrue_or (a b : Truth) : (a.or b).isTrue = (a.isTrue || b.isTrue) := by
  cases a <;> cases b <;> rfl

theorem and_assoc (a b c : Truth) : (a.and b).and c = a.and (b.and c) := by
  cases a <;> cases b <;> cases c <;> rfl

theorem or_assoc (a b c : Truth) : (a.or b).or c = a.or (b.or c) := by
  cases a <;> cases b <;> cases c <;> rfl

theorem or_no (a : Truth) : a.or no = a := by
  cases a <;> rfl

theorem no_or (a : Truth) : no.or a = a := by
  cases a <;> rfl

theorem yes_and (a : Truth) : yes.and a = a := by
  cases a <;> rfl

theorem and_yes (a : Truth) : a.and yes = a := by
  cases a <;> rfl

theorem isTrue_any_map {α : Type} (test : α → Truth) (items : List α) :
    (any (items.map test)).isTrue = items.any fun item => (test item).isTrue := by
  induction items with
  | nil => rfl
  | cons item items ih =>
    rw [List.map_cons, any, List.foldr_cons, isTrue_or, List.any_cons]
    exact congrArg _ ih

end Truth

/-! ### Comparing values -/

/-- The order of two values of one type: texts go by their code points and bytes one after the other. Values of two types have no order. -/
def order? : Value → Value → Option Ordering
  | .boolean a, .boolean b => some (Ord.compare a.toNat b.toNat)
  | .string a, .string b => some (Ord.compare (a.toList.map Char.toNat) (b.toList.map Char.toNat))
  | .integer a, .integer b => some (Ord.compare a.toInt b.toInt)
  | .timestamp a, .timestamp b => some (a.compare b)
  | .date a, .date b => some (a.compare b)
  | .time a, .time b => some (a.compare b)
  | .binary a, .binary b => some (Ord.compare (a.map UInt8.toNat) (b.map UInt8.toNat))
  | _, _ => none

/-- Whether a sign of comparison agrees with an order. -/
def accepts : Comparison → Ordering → Bool
  | .equal, order => order == .eq
  | .notEqual, order => order != .eq
  | .lessThan, order => order == .lt
  | .greaterThan, order => order == .gt
  | .lessOrEqual, order => order != .gt
  | .greaterOrEqual, order => order != .lt

/-- A comparison, which is unknown as soon as one side is null. -/
def Truth.compare (op : Comparison) (a b : Value) : Truth :=
  if a.isNull || b.isNull then .unknown
  else match order? a b with
    | some order => .ofBool (accepts op order)
    | none => .unknown

/-- Whether two values are not distinct: equal, or both null. -/
def alike (a b : Value) : Bool :=
  if a.isNull || b.isNull then a.isNull && b.isNull else order? a b == some .eq

/-- What the columns of a row hold; a name that is no column has nothing. -/
abbrev Cells := String → Option Value

def Term.read (cells : Cells) : Term → Value
  | column name => (cells name).getD .null
  | null => .null
  | value literal => literal

/-- Whether a JSON document contains another one, both given as the values that they encode. -/
abbrev Containment := Value → Value → Bool

namespace Condition

/-- Whether a text matches a pattern. -/
def likeTruth : Value → Value → Truth
  | .string pattern, .string text => .ofBool (Like.accepts pattern.toList text.toList)
  | _, _ => .unknown

/-- Whether a document contains another. -/
def containedTruth (contains : Containment) (document part : Value) : Truth :=
  if document.isNull || part.isNull then .unknown else .ofBool (contains document part)

/-- Whether a value is listed, or null where null is listed too. -/
def listedTruth (value : Value) (values : List Value) (orNull : Bool) : Truth :=
  (Truth.any (values.map (Truth.compare .equal value))).or (if orNull then .ofBool value.isNull else .no)

mutual

/-- What a condition evaluates to on a row. -/
def truth (contains : Containment) (cells : Cells) : Condition → Truth
  | const flag => .ofBool flag
  | isNull term => .ofBool (term.read cells).isNull
  | isNotNull term => .ofBool !(term.read cells).isNull
  | compare op left right => .compare op (left.read cells) (right.read cells)
  | distinct left right => .ofBool !alike (left.read cells) (right.read cells)
  | notDistinct left right => .ofBool (alike (left.read cells) (right.read cells))
  | listed term values orNull => listedTruth (term.read cells) values orNull
  | hasElement column element => containedTruth contains ((Term.column column).read cells) (.array [element.read cells])
  | like column pattern => likeTruth (.string pattern) ((Term.column column).read cells)
  | isNotTrue inner => .ofBool !(truth contains cells inner).isTrue
  | all parts => .all (truths contains cells parts)
  | any parts => .any (truths contains cells parts)
termination_by structural condition => condition

def truths (contains : Containment) (cells : Cells) : List Condition → List Truth
  | [] => []
  | part :: parts => truth contains cells part :: truths contains cells parts
termination_by structural parts => parts

end

end Condition

/-! ### Conditions that a server accepts -/

/-- The column of a term, if it is one, is there. -/
def Term.InScope (cells : Cells) : Term → Prop
  | column name => (cells name).isSome
  | null | value _ => True

namespace Condition

mutual

/-- Every column is there, and nothing is joined out of no parts. -/
def WellFormed (cells : Cells) : Condition → Prop
  | const _ => True
  | isNull term | isNotNull term => term.InScope cells
  | compare _ left right | distinct left right | notDistinct left right => left.InScope cells ∧ right.InScope cells
  | listed term values orNull => term.InScope cells ∧ (values ≠ [] ∨ orNull = true)
  | hasElement column element => (cells column).isSome ∧ element.InScope cells
  | like column _ => (cells column).isSome
  | isNotTrue inner => WellFormed cells inner
  | all parts | any parts => parts ≠ [] ∧ AllWellFormed cells parts
termination_by structural condition => condition

def AllWellFormed (cells : Cells) : List Condition → Prop
  | [] => True
  | part :: parts => WellFormed cells part ∧ AllWellFormed cells parts
termination_by structural parts => parts

end

end Condition

end Relational

end ObjectStore
