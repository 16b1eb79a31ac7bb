import ObjectStore.Predicate.Evaluate
import ObjectStore.Update

/-!
# Queries

Descriptions of what to read and what to write. A query for many records pages through its matches; a query for one record may carry an update and the fields of a record to insert when nothing matches.
-/

namespace ObjectStore

inductive SortOrder where
  | ascending | descending
deriving DecidableEq, Inhabited

/-- Sort keys, of which earlier ones take precedence. -/
abbrev SortKeys := OrderedMap SortOrder

/-- Which image of a record a write returns. -/
inductive Returning where
  | before | after
deriving DecidableEq

instance : Inhabited Returning := ⟨.after⟩

/-- A query for many records. The filters hold together. -/
structure FindQuery where
  className : String
  filters : List Predicate := []
  sort : SortKeys := []
  skip : Nat := 0
  limit : Option Nat := none
  /-- The fields to return; all of them if there is no list. -/
  includes : Option NameSet := none
deriving Inhabited

/-- A query for one record, with what to write to it. -/
structure FindOneQuery where
  className : String
  filters : List Predicate := []
  sort : SortKeys := []
  includes : Option NameSet := none
  returning : Returning := .after
  /-- Applied to the match, or to the record that an upsert inserts. -/
  update : Updates := []
  /-- Written only to a record that an upsert inserts. -/
  setOnInsert : Fields := []
deriving Inhabited

namespace FindQuery

def addFilter (query : FindQuery) (predicate : Predicate) : FindQuery :=
  { query with filters := query.filters ++ [predicate] }

def addSort (query : FindQuery) (key : String) (order : SortOrder) : FindQuery :=
  { query with sort := OrderedMap.insert query.sort key order }

def withIncludes (query : FindQuery) (names : List String) : FindQuery :=
  { query with includes := some (NameSet.ofList names) }

def validate (query : FindQuery) : Outcome Unit :=
  if query.className.isEmpty then .error .classNotSet else .ok ()

def predicate? (query : FindQuery) : Option Predicate := Predicate.conjunction? query.filters

/-- The query for one record with the same filters, order and fields. -/
def findOne (query : FindQuery) : FindOneQuery where
  className := query.className
  filters := query.filters
  sort := query.sort
  includes := query.includes

end FindQuery

/-- The field and the value that an equality between a key and a literal fixes. -/
def Predicate.equality? : Comparison → Operand → Operand → Option (String × Value)
  | .equal, .key key, .literal value | .equal, .literal value, .key key => some (key, value)
  | _, _, _ => none

mutual

/-- The fields that a predicate fixes by equalities under conjunctions, in order. -/
def Predicate.equalities : Predicate → List (String × Value)
  | .compare op lhs rhs => (Predicate.equality? op lhs rhs).toList
  | .all list => equalitiesOfList list
  | _ => []
termination_by structural predicate => predicate

def Predicate.equalitiesOfList : List Predicate → List (String × Value)
  | [] => []
  | first :: rest => Predicate.equalities first ++ equalitiesOfList rest
termination_by structural list => list

end

namespace FindOneQuery

def addFilter (query : FindOneQuery) (predicate : Predicate) : FindOneQuery :=
  { query with filters := query.filters ++ [predicate] }

def addSort (query : FindOneQuery) (key : String) (order : SortOrder) : FindOneQuery :=
  { query with sort := OrderedMap.insert query.sort key order }

def withIncludes (query : FindOneQuery) (names : List String) : FindOneQuery :=
  { query with includes := some (NameSet.ofList names) }

/-- Adds the update of a field, in place of an earlier one. -/
def addUpdate (query : FindOneQuery) (key : String) (update : Update) : FindOneQuery :=
  { query with update := OrderedMap.insert query.update key update }

def addUpdates (query : FindOneQuery) (updates : Updates) : FindOneQuery :=
  { query with update := OrderedMap.extend query.update updates }

def addSetOnInsert (query : FindOneQuery) (key : String) (value : Value) : FindOneQuery :=
  { query with setOnInsert := OrderedMap.insert query.setOnInsert key value }

def validate (query : FindOneQuery) : Outcome Unit :=
  if query.className.isEmpty then .error .classNotSet else .ok ()

def predicate? (query : FindOneQuery) : Option Predicate := Predicate.conjunction? query.filters

/-- The query for many records that stops at the first. -/
def asFind (query : FindOneQuery) : FindQuery where
  className := query.className
  filters := query.filters
  sort := query.sort
  limit := some 1
  includes := query.includes

/-- What an inserted record starts from: the fields that the filters fix, then those to set on insert. -/
def seedFields (query : FindOneQuery) : Fields :=
  OrderedMap.extend (OrderedMap.ofList (Predicate.equalitiesOfList query.filters)) query.setOnInsert

/-- The record that an upsert inserts when nothing matches: the seed with the update applied to it. -/
def upsertSeed (query : FindOneQuery) : Outcome Fields := query.update.applyTo query.seedFields

end FindOneQuery

end ObjectStore
