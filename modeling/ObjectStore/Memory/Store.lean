import ObjectStore.Memory.Select
import ObjectStore.Script
import ObjectStore.Sources

/-!
# The in-memory store

Tables of records in memory, as a state that every operation maps to a result and a next state. An identifier is unique within its class; a collision is a race, and an insertion that lost it draws another identifier. A transaction runs on the state itself and its tables are put back if the body fails; stamps and identifiers that were used stay used.
-/

namespace ObjectStore

structure Memory where
  tables : OrderedMap Memory.Table := []
  sources : Sources

namespace Memory

/-- An operation on the state. What it changed before it failed stays changed. -/
abbrev Action := ExceptT Failure (StateM Memory)

def now : Action Value := do
  let memory ← get
  let (instant, sources) := memory.sources.now .micros
  set { memory with sources }
  return .timestamp instant

def drawId : Action String := do
  let memory ← get
  let (id, sources) := memory.sources.draw
  set { memory with sources }
  return id

def table? (className : String) : Action (Option Table) := do return OrderedMap.get? (← get).tables className

def setTable (className : String) (table : Table) : Action Unit :=
  modify fun memory => { memory with tables := OrderedMap.insert memory.tables className table }

/-- The table of a class, which is made if there is none. -/
def openTable (className : String) : Action Table := do
  match ← table? className with
  | some table => return table
  | none =>
    setTable className []
    return []

def duplicateId (className id : String) : Failure :=
  .backend (some .duplicateId) s!"Duplicate id {id} in class {className}"

/-- Adds a record at the end of its class. -/
def insertRecord (className : String) (table : Table) (id : String) (record : Fields) : Action Unit :=
  if OrderedMap.contains table id then throw (duplicateId className id)
  else setTable className (OrderedMap.insert table id record)

def insertOnce (className : String) (fields : Fields) : Action Object := do
  let stamp ← now
  let id ← drawId
  let record := Fields.stamped (.string id) stamp fields
  let table ← openTable className
  insertRecord className table id record
  liftM (Object.ofRecord className record)

/-- Updates the first match of a query and returns the wanted image, projected. -/
def updateFirst (table : Table) (query : FindOneQuery) (stamp : Value) : Action (Option Fields) := do
  match (selectEntries table query.asFind).head? with
  | none => return none
  | some (id, before) =>
    let updated ← liftM (applyUpdates query.update before)
    let after := OrderedMap.insert updated FieldName.physicalUpdatedAt stamp
    setTable query.className (OrderedMap.insert table id after)
    let image := match query.returning with
      | .before => before
      | .after => after
    return some (project query.includes image)

/-- The identifier of an inserted record: that of the seed, spelled out if it is no string, or a fresh one. -/
def seedId : Option Value → Action String
  | some (.string id) => pure id
  | some other => pure (ExtendedJson.toText other)
  | none => drawId

def upsertOnce (query : FindOneQuery) : Action (Option Object) := do
  let className := query.className
  let stamp ← now
  let table ← openTable className
  match ← updateFirst table query stamp with
  | some image => return some (← liftM (Object.ofRecord className image))
  | none =>
    let seed ← liftM query.upsertSeed
    let id ← seedId (OrderedMap.get? seed FieldName.physicalId)
    let record := Fields.stamped (.string id) stamp (OrderedMap.filter (fun key _ => !FieldName.isReserved key) seed)
    insertRecord className table id record
    match query.returning with
    | .before => return none
    | .after => return some (← liftM (Object.ofRecord className (project query.includes record)))

def selectObjects (className : String) (query : FindQuery) (table : Table) : Outcome (List Object) :=
  (selectEntries table query).mapM fun (_, record) => Object.ofRecord className (project query.includes record)

def find (query : FindQuery) : Action (List Object) := do
  liftM query.validate
  match ← table? query.className with
  | none => return []
  | some table => liftM (selectObjects query.className query.toPhysical table)

def createTable (className : String) : Action Unit := do
  if className.isEmpty then throw .classNotSet
  let _ ← openTable className

def perform (patience : Nat) : (operation : Operation) → Action operation.Answer
  | .tables => do return (OrderedMap.keys (← get).tables).mergeSort fun a b => a ≤ b
  | .createTable className _ | .addColumns className _ => createTable className
  | .dropTable className => modify fun memory => { memory with tables := OrderedMap.erase memory.tables className }
  | .dropColumns className columns => do
    liftM (FieldName.rejectReserved columns)
    match ← table? className with
    | none => return ()
    | some table => setTable className (table.map fun (id, record) => (id, columns.foldl OrderedMap.erase record))
  | .addIndex _ _ _ _ | .dropIndex _ _ => pure ()
  | .count query => do
    liftM query.validate
    match ← table? query.className with
    | none => return (0 : Nat)
    | some table => return (select table query.toPhysical).length
  | .find query => find query
  | .each query visitor => do
    match ← ExceptT.lift (find query).run with
    | .error failure => return Visit.failed failure
    | .ok objects => return Visitor.visit visitor .ok [] objects
  | .first query => do return (← find { query with limit := some 1 }).head?
  | .update query => do
    liftM query.validate
    liftM (FieldName.rejectReserved (OrderedMap.keys query.update))
    let stamp ← now
    match ← table? query.className with
    | none => return none
    | some table =>
      match ← updateFirst table query.toPhysical stamp with
      | some image => return some (← liftM (Object.ofRecord query.className image))
      | none => return none
  | .upsert query => do
    liftM query.validate
    liftM (FieldName.rejectReserved (OrderedMap.keys query.update ++ OrderedMap.keys query.setOnInsert))
    let physical := query.toPhysical
    let seed ← liftM physical.upsertSeed
    let limit := if OrderedMap.contains seed FieldName.physicalId then some 2 else none
    ExceptT.mk (retryRaces [.duplicateId] limit patience fun _ => (upsertOnce physical).run)
  | .delete query => do
    liftM query.validate
    match ← table? query.className with
    | none => return none
    | some table =>
      let physical := query.toPhysical
      match (selectEntries table physical.asFind).head? with
      | none => return none
      | some (id, record) =>
        setTable query.className (OrderedMap.erase table id)
        return some (← liftM (Object.ofRecord query.className (project physical.includes record)))
  | .deleteAll query => do
    liftM query.validate
    match ← table? query.className with
    | none => return (0 : Nat)
    | some table =>
      let ids := select table { query.toPhysical with skip := 0, limit := none }
      setTable query.className (ids.foldl OrderedMap.erase table)
      return ids.length
  | .insert className fields => do
    if className.isEmpty then throw .classNotSet
    liftM (FieldName.rejectReserved (OrderedMap.keys fields))
    ExceptT.mk (retryRaces [.duplicateId] none patience fun _ => (insertOnce className fields).run)

/-- Runs a body and puts the tables back if it fails. -/
def transact {β : Type} (body : StateM Memory (Outcome Unit × β)) : StateM Memory (Outcome Unit × Option β) := do
  let before := (← get).tables
  let (outcome, learned) ← body
  match outcome with
  | .ok () => return (.ok (), some learned)
  | .error failure =>
    modify fun memory => { memory with tables := before }
    return (.error failure, some learned)

def backend (patience : Nat) : Backend (StateM Memory) where
  perform _ operation := (perform patience operation).run
  transact _ body := transact body

end Memory

end ObjectStore
