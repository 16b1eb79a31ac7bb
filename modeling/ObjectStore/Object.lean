import ObjectStore.DateStrategy
import ObjectStore.Query

/-!
# Objects, drafts and reserved names

An object is a record as it was last read or written. Its id and its two stamps have names of their own, under which callers address them; in storage they go by physical names, and every query is put into those names before a backend sees it. A draft is an object with mutations that are not yet written.
-/

namespace ObjectStore

namespace FieldName

def id : String := "id"

def createdAt : String := "createdAt"

def updatedAt : String := "updatedAt"

def physicalId : String := "_id"

def physicalCreatedAt : String := "_created_at"

def physicalUpdatedAt : String := "_updated_at"

def reserved : List String := [physicalId, physicalCreatedAt, physicalUpdatedAt]

/-- The name under which a field is stored. -/
def toPhysical (name : String) : String :=
  if name = id then physicalId
  else if name = createdAt then physicalCreatedAt
  else if name = updatedAt then physicalUpdatedAt
  else name

/-- The name under which callers address a stored field. -/
def ofPhysical (name : String) : String :=
  if name = physicalId then id
  else if name = physicalCreatedAt then createdAt
  else if name = physicalUpdatedAt then updatedAt
  else name

/-- Whether a name belongs to a reserved field, in either form. -/
def isReserved (name : String) : Bool := [id, createdAt, updatedAt].contains name || reserved.contains name

/-- Fails at the first reserved name: only the library writes those fields. -/
def rejectReserved (names : List String) : Outcome Unit :=
  match names.find? isReserved with
  | some name => .error (.unsupportedOperation s!"`{name}` is maintained by the driver")
  | none => .ok ()

end FieldName

def Predicate.toPhysical (predicate : Predicate) : Predicate := predicate.mapKeys FieldName.toPhysical

def Updates.toPhysical (updates : Updates) : Updates := OrderedMap.mapKeys FieldName.toPhysical updates

def Fields.toPhysical (fields : Fields) : Fields := OrderedMap.mapKeys FieldName.toPhysical fields

/-- A new record: its id and its stamps, and then the given fields. -/
def Fields.stamped (id now : Value) (fields : Fields) : Fields :=
  OrderedMap.extend
    [(FieldName.physicalId, id), (FieldName.physicalCreatedAt, now), (FieldName.physicalUpdatedAt, now)] fields

/-- A projection of stored records. The reserved fields are always kept, so that an object is fully identified. -/
def NameSet.toPhysical (names : NameSet) : NameSet :=
  NameSet.ofList (FieldName.reserved ++ names.map FieldName.toPhysical)

def FindQuery.toPhysical (query : FindQuery) : FindQuery where
  className := query.className
  filters := query.filters.map Predicate.toPhysical
  sort := OrderedMap.mapKeys FieldName.toPhysical query.sort
  skip := query.skip
  limit := query.limit
  includes := query.includes.map NameSet.toPhysical

def FindOneQuery.toPhysical (query : FindOneQuery) : FindOneQuery where
  className := query.className
  filters := query.filters.map Predicate.toPhysical
  sort := OrderedMap.mapKeys FieldName.toPhysical query.sort
  includes := query.includes.map NameSet.toPhysical
  returning := query.returning
  update := query.update.toPhysical
  setOnInsert := query.setOnInsert.toPhysical

/-- A record as it was last read or written. -/
structure Object where
  className : String
  id : Option String := none
  createdAt : Option Instant := none
  updatedAt : Option Instant := none
  /-- The fields that are not reserved. -/
  data : Fields := []
deriving Inhabited

namespace Object

/-- A reference to a record whose fields were not read. -/
def withId (className id : String) : Object := { className, id := some id }

/-- The id in a stored field: a string, or an integer by its digits. -/
def idOfValue : Option Value → Outcome (Option String)
  | none | some .null => .ok none
  | some (.string id) => .ok (some id)
  | some (.integer n) => .ok (some (toString n.toInt))
  | some _ => .error .invalidObjectId

def stampOfValue : Option Value → Outcome (Option Instant)
  | none | some .null => .ok none
  | some value => (value.toInstant default).map some

def ofRecord (className : String) (record : Fields) : Outcome Object := do
  let id ← idOfValue (OrderedMap.get? record FieldName.physicalId)
  let createdAt ← stampOfValue (OrderedMap.get? record FieldName.physicalCreatedAt)
  let updatedAt ← stampOfValue (OrderedMap.get? record FieldName.physicalUpdatedAt)
  let data := FieldName.reserved.foldl OrderedMap.erase record
  return { className, id, createdAt, updatedAt, data }

/-- A field by the name that callers use. -/
def get? (object : Object) (key : String) : Option Value :=
  if key = FieldName.id then object.id.map .string
  else if key = FieldName.createdAt then object.createdAt.map .timestamp
  else if key = FieldName.updatedAt then object.updatedAt.map .timestamp
  else OrderedMap.get? object.data key

/-- All fields by the names that callers use, the reserved ones first. -/
def toFields (object : Object) : Fields :=
  let reserved := [FieldName.id, FieldName.createdAt, FieldName.updatedAt].filterMap fun key =>
    (object.get? key).map fun value => (key, value)
  OrderedMap.extend reserved object.data

end Object

/-- An object with mutations that are not yet written. -/
structure Draft where
  object : Object
  mutations : Updates := []
deriving Inhabited

namespace Draft

def new (className : String) : Draft := { object := { className } }

def isDirty (draft : Draft) : Bool := !draft.mutations.isEmpty

/-- Records a mutation of a field, in place of an earlier one. -/
def update (draft : Draft) (key : String) (update : Update) : Draft :=
  { draft with mutations := OrderedMap.insert draft.mutations key update }

/-- The value that a field would have after saving. -/
def preview (draft : Draft) (key : String) : Outcome (Option Value) :=
  match OrderedMap.get? draft.mutations key with
  | some update => update.apply (draft.object.get? key)
  | none => .ok (draft.object.get? key)

def insertFields (draft : Draft) : Outcome Fields := draft.mutations.applyTo draft.object.data

end Draft

end ObjectStore
