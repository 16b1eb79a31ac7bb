import ObjectStore.Predicate.Evaluate
import ObjectStore.Relational.Statement
import ObjectStore.Relational.Table

/-!
# Conditions

Predicates as conditions on the rows of a table. A column that the table does not have reads as null, like an absent field. What a predicate leaves undecided must not become true under negation, so a negated condition asks that the inner one be not true.
-/

namespace ObjectStore

namespace Relational

inductive Term where
  | column (name : String)
  /-- What stands for a column that the table does not have. -/
  | null
  | value (value : Value)
deriving Inhabited

inductive Condition where
  | const (flag : Bool)
  | isNull (term : Term)
  | isNotNull (term : Term)
  | compare (op : Comparison) (left right : Term)
  /-- Two terms differ, where two nulls do not. -/
  | distinct (left right : Term)
  /-- Two terms are the same, where two nulls are. -/
  | notDistinct (left right : Term)
  /-- A term is one of some values, none of which is null, or it is null where null is listed too. -/
  | listed (term : Term) (values : List Value) (orNull : Bool)
  | hasElement (column : String) (element : Term)
  | like (column : String) (pattern : String)
  | isNotTrue (inner : Condition)
  | all (parts : List Condition)
  | any (parts : List Condition)
deriving Inhabited

/-- Writes the characters that have a meaning in a pattern so that they stand for themselves. -/
def escapeLike (text : String) : String :=
  String.ofList (text.toList.flatMap fun c => if c = '\\' ∨ c = '%' ∨ c = '_' then ['\\', c] else [c])

def likePattern : TextPattern → String → String
  | .startsWith, text => escapeLike text ++ "%"
  | .endsWith, text => "%" ++ escapeLike text
  | .contains, text => "%" ++ escapeLike text ++ "%"

namespace Term

/-- The term of a key: its column, or null if there is none. -/
def ofKey (table : Table) (key : String) : Term := if table.hasColumn key then column key else null

def ofOperand (table : Table) : Operand → Term
  | .key key => ofKey table key
  | .literal literal => value literal

def pieces : Term → Pieces
  | column name => [.name name]
  | null => [.sql "NULL"]
  | value literal => [.value literal]

end Term

namespace Condition

/-- A comparison of a key with null: equality asks whether there is a value, and order holds of nothing. -/
def compareNull (op : Comparison) (term : Term) : Condition :=
  match op with
  | .equal => isNull term
  | .notEqual => isNotNull term
  | _ => const false

/-- A comparison. One of two literals is decided at once. -/
def ofCompare (table : Table) (op : Comparison) : Operand → Operand → Condition
  | .literal a, .literal b => const ((Predicate.compare op (.literal a) (.literal b)).holds [])
  | .literal .null, .key key | .key key, .literal .null => compareNull op (Term.ofKey table key)
  | .key a, .key b =>
    match op with
    | .equal => notDistinct (Term.ofKey table a) (Term.ofKey table b)
    | .notEqual => distinct (Term.ofKey table a) (Term.ofKey table b)
    | op => compare op (Term.ofKey table a) (Term.ofKey table b)
  | a, b =>
    match op with
    | .notEqual => distinct (Term.ofOperand table a) (Term.ofOperand table b)
    | op => compare op (Term.ofOperand table a) (Term.ofOperand table b)

def ofElement (table : Table) : Operand → Operand → Condition
  | .literal element, .literal collection => const ((Predicate.elementOf (.literal element) (.literal collection)).holds [])
  | .key key, .literal (.array values) =>
    let present := values.filter fun value => !value.isNull
    let orNull := values.any Value.isNull
    if present.isEmpty && !orNull then const false else listed (Term.ofKey table key) present orNull
  | .key _, .literal _ => const false
  | element, .key key =>
    match table.column? key with
    | some .jsonb => hasElement key (Term.ofOperand table element)
    | _ => const false

def ofPattern (table : Table) (pattern : TextPattern) (key text : String) : Condition :=
  if table.hasColumn key then like key (likePattern pattern text) else const false

mutual

def ofPredicate (table : Table) : Predicate → Condition
  | .not inner => isNotTrue (ofPredicate table inner)
  | .compare op a b => ofCompare table op a b
  | .elementOf element collection => ofElement table element collection
  | .notElementOf element collection =>
    match element, collection with
    | .literal a, .literal b => const ((Predicate.not (.elementOf (.literal a) (.literal b))).holds [])
    | element, collection => isNotTrue (ofElement table element collection)
  | .between value low high => all [ofCompare table .lessOrEqual low value, ofCompare table .lessOrEqual value high]
  | .notBetween value low high => any [ofCompare table .lessThan value low, ofCompare table .greaterThan value high]
  | .pattern pattern key text => ofPattern table pattern key text
  | .all parts => if parts.isEmpty then const true else all (ofPredicates table parts)
  | .any parts => if parts.isEmpty then const false else any (ofPredicates table parts)
termination_by structural predicate => predicate

def ofPredicates (table : Table) : List Predicate → List Condition
  | [] => []
  | part :: parts => ofPredicate table part :: ofPredicates table parts
termination_by structural parts => parts

end

/-- The condition of an optional predicate; none holds everywhere. -/
def ofOptional (table : Table) : Option Predicate → Condition
  | some predicate => ofPredicate table predicate
  | none => const true

def sign : Comparison → String
  | .equal => "="
  | .notEqual => "<>"
  | .lessThan => "<"
  | .greaterThan => ">"
  | .lessOrEqual => "<="
  | .greaterOrEqual => ">="

/-- The one-element array that a JSON column must contain: a literal is bound in its array, and the server puts the value of a column into one. -/
def elementPieces : Term → Pieces
  | .value literal => [.value (.array [literal])]
  | term => .sql "jsonb_build_array(" :: term.pieces ++ [.sql ")"]

def listedPieces (term : Term) (values : List Value) (orNull : Bool) : Pieces :=
  let inList := term.pieces ++ .sql " IN (" :: Pieces.join ", " (values.map fun value => [.value value]) ++ [.sql ")"]
  let isNull := term.pieces ++ [.sql " IS NULL"]
  Pieces.join " OR " ((if values.isEmpty then [] else [inList]) ++ (if orNull then [isNull] else []))

def between (opening : String) (inner : Pieces) (closing : String) : Pieces := .sql opening :: inner ++ [.sql closing]

mutual

def pieces : Condition → Pieces
  | const flag => [.sql (if flag then "TRUE" else "FALSE")]
  | isNull term => between "(" term.pieces " IS NULL)"
  | isNotNull term => between "(" term.pieces " IS NOT NULL)"
  | compare op left right => between "(" (left.pieces ++ .sql (" " ++ sign op ++ " ") :: right.pieces) ")"
  | distinct left right => between "(" (left.pieces ++ .sql " IS DISTINCT FROM " :: right.pieces) ")"
  | notDistinct left right => between "(" (left.pieces ++ .sql " IS NOT DISTINCT FROM " :: right.pieces) ")"
  | listed term values orNull => between "(" (listedPieces term values orNull) ")"
  | hasElement column element => between "(" (.name column :: .sql " @> " :: elementPieces element) ")"
  | like column pattern => between "(" [.name column, .sql " LIKE ", .value (.string pattern)] " ESCAPE '\\')"
  | isNotTrue inner => between "((" (pieces inner) ") IS NOT TRUE)"
  | all parts => between "(" (Pieces.join " AND " (piecesOfList parts)) ")"
  | any parts => between "(" (Pieces.join " OR " (piecesOfList parts)) ")"
termination_by structural condition => condition

def piecesOfList : List Condition → List Pieces
  | [] => []
  | part :: parts => pieces part :: piecesOfList parts
termination_by structural parts => parts

end

end Condition

end Relational

end ObjectStore
