import ObjectStore.Query

/-!
# Selecting records

Filtering, ordering, paging and projecting the records of one class. Missing and null fields come first, and values without an order count as equal. The sort is an insertion sort that keeps the order of equal records.
-/

namespace ObjectStore

namespace Memory

/-- The records of a class by id, in the order of insertion. -/
abbrev Table := OrderedMap Fields

def compareFields (left right : Option Value) : Ordering :=
  match left.filter fun value => !value.isNull, right.filter fun value => !value.isNull with
  | none, none => .eq
  | none, some _ => .lt
  | some _, none => .gt
  | some a, some b => (a.compare? b).getD .eq

def directed : SortOrder → Ordering → Ordering
  | .ascending, order => order
  | .descending, order => order.swap

/-- The order of two records by some sort keys: the first key that tells them apart decides. -/
def compareRecords : SortKeys → Fields → Fields → Ordering
  | [], _, _ => .eq
  | (key, direction) :: rest, a, b =>
    (directed direction (compareFields (OrderedMap.get? a key) (OrderedMap.get? b key))).then (compareRecords rest a b)

/-- Puts an element into a sorted list that is held back to front, behind all that it is not less than. -/
def insertBackward {α : Type} (compare : α → α → Ordering) (x : α) : List α → List α
  | [] => [x]
  | y :: ys => if compare x y = .lt then y :: insertBackward compare x ys else x :: y :: ys

/-- Sorts a list and keeps the order of equal elements. -/
def insertionSort {α : Type} (compare : α → α → Ordering) (items : List α) : List α :=
  (items.foldl (fun sorted x => insertBackward compare x sorted) []).reverse

/-- The records that a query selects, with their ids: filtered, sorted and paged. -/
def selectEntries (table : Table) (query : FindQuery) : List (String × Fields) :=
  let matching : Table := OrderedMap.filter (fun _ record => Predicate.passes query.predicate? record) table
  let sorted := insertionSort (fun a b => compareRecords query.sort a.2 b.2) matching
  let paged := sorted.drop query.skip
  match query.limit with
  | some limit => paged.take limit
  | none => paged

def select (table : Table) (query : FindQuery) : List String := (selectEntries table query).map Prod.fst

def project (includes : Option NameSet) (record : Fields) : Fields :=
  match includes with
  | some names => OrderedMap.filter (fun key _ => names.contains key) record
  | none => record

/-- Applies updates to a stored record. The id is not updated. -/
def applyUpdates (updates : Updates) (record : Fields) : Outcome Fields :=
  updates.foldlM (fun record (key, update) =>
    if key = "_id" then throw (.unsupportedOperation "the record id cannot be updated")
    else do
      let value ← update.apply (OrderedMap.get? record key)
      return OrderedMap.put record key value) record

end Memory

end ObjectStore
