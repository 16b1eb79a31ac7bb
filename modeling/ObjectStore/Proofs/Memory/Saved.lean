import ObjectStore.Proofs.Memory.Records
import ObjectStore.Proofs.Memory.Stamps
import ObjectStore.Proofs.Script

/-!
# Objects that are saved, fetched and deleted

The filter of an id selects the one record of that id. So an object that is saved is the one that is fetched, one that is deleted is not found any more, and nothing happens to other records. A draft previews what saving it stores, because an insertion and an update both apply its mutations to the fields that its object shows.
-/

namespace ObjectStore

theorem FindOneQuery.validate_eq_ok_iff {query : FindOneQuery} : query.validate = .ok () ↔ query.className.isEmpty = false := by
  rw [validate]
  split <;> simp_all

namespace Memory

/-! ### Selecting by id -/

/-- The filter of an id in the names of storage. -/
def byId (id : String) : Option Predicate := some (Database.idFilter id).toPhysical

theorem passes_byId {last : Int} {other : String} {record : Fields} (h : KeptRecord last other record) (id : String) :
    Predicate.passes (byId id) record = (other == id) := by
  show (Comparison.equal.holds ((OrderedMap.get? record FieldName.physicalId).getD .null) (.string id)) = _
  rw [h.id]
  rfl

section Select

variable {last : Int} {table : Table} (hkept : KeptTable last table) (hdistinct : OrderedMap.Distinct table)

include hkept

theorem mem_matching_byId {id : String} {entry : String × Fields} (h : entry ∈ matching table (byId id)) :
    entry ∈ table ∧ entry.1 = id := by
  obtain ⟨hentry, hpasses⟩ := mem_matching_iff.mp h
  rw [passes_byId (hkept entry hentry), beq_iff_eq] at hpasses
  exact ⟨hentry, hpasses⟩

include hdistinct

theorem matching_byId (id : String) : matching table (byId id) = ((OrderedMap.get? table id).map fun record => (id, record)).toList := by
  rw [← OrderedMap.filter_key hdistinct]
  exact List.filter_congr fun entry hentry => passes_byId (hkept entry hentry) id

theorem selectEntries_byId {query : FindQuery} {id : String} (hfilter : query.predicate? = byId id) (hskip : query.skip = 0)
    (hlimit : query.limit = some 1) :
    selectEntries table query = ((OrderedMap.get? table id).map fun record => (id, record)).toList := by
  have hmatching := matching_byId hkept hdistinct id
  rw [matching, ← hfilter] at hmatching
  simp only [selectEntries, hmatching, hskip, hlimit]
  cases OrderedMap.get? table id <;> rfl

theorem selectObjects_byId {query : FindQuery} {id : String} (hfilter : query.predicate? = byId id) (hskip : query.skip = 0)
    (hlimit : query.limit = some 1) (hincludes : query.includes = none) (className : String) :
    selectObjects className query table =
      match OrderedMap.get? table id with
      | none => .ok []
      | some record => (Object.ofRecord className record).map fun object => [object] := by
  simp only [selectObjects, selectEntries_byId hkept hdistinct hfilter hskip hlimit, hincludes, project]
  cases OrderedMap.get? table id with
  | none => rfl
  | some record =>
    show ([(id, record)].mapM fun entry => Object.ofRecord className entry.2) = _
    rw [Outcome.mapM_cons, List.mapM_nil]
    dsimp only
    cases Object.ofRecord className record <;> rfl

end Select

/-! ### Fetching -/

section Find

variable {memory : Memory} {query : FindQuery} (hvalid : query.validate = .ok ())

theorem selectObjects_nil (className : String) (query : FindQuery) : selectObjects className query [] = .ok [] := by
  rw [selectObjects, selectEntries_nil]
  rfl

include hvalid

theorem run_find :
    (find query).run.run memory = (selectObjects query.className query.toPhysical (memory.tableOf query.className), memory) := by
  refine run_eq_of_ends (ends_valid hvalid ?_)
  refine ends_bind (ends_table?.mpr ?_)
  cases htable : OrderedMap.get? memory.tables query.className with
  | none =>
    rw [tableOf_of_missing htable, selectObjects_nil]
    rfl
  | some table =>
    rw [tableOf_of_get? htable]
    simp only [andNext]
    rw [ends_lift]

theorem run_first (patience : Nat) :
    (perform patience (.first query)).run.run memory =
      ((selectObjects query.className { query.toPhysical with limit := some 1 } (memory.tableOf query.className)).map List.head?,
        memory) := by
  have hfound := @run_find memory { query with limit := some 1 } hvalid
  refine run_eq_of_ends (ends_bind ?_)
  rw [Ends, hfound]
  show andNext _ _ (selectObjects query.className { query.toPhysical with limit := some 1 } (memory.tableOf query.className)) memory
  cases selectObjects query.className { query.toPhysical with limit := some 1 } (memory.tableOf query.className) <;> rfl

end Find

/-- An operation whose answer is worked on. -/
theorem run_answered (patience : Nat) (inTransaction : Bool) (memory : Memory) (operation : Operation) {β : Type}
    (next : operation.Answer → Outcome β) :
    ((andThen (Script.perform operation) fun answer => pure (next answer)).run (backend patience) inTransaction).run memory =
      (((perform patience operation).run.run memory).1.bind next, ((perform patience operation).run.run memory).2) := by
  rw [Script.run_andThen, Script.run_perform, andThen, StateT.run_bind]
  show ((perform patience operation).run.run memory >>= _) = _
  rcases (perform patience operation).run.run memory with ⟨outcome, after⟩
  cases outcome <;> rfl

theorem run_answered_ok {patience : Nat} {inTransaction : Bool} {memory after : Memory} (operation : Operation) {β : Type}
    {next : operation.Answer → Outcome β} {b : β}
    (h : ((andThen (Script.perform operation) fun answer => pure (next answer)).run (backend patience) inTransaction).run memory =
      (.ok b, after)) :
    ∃ answer, (perform patience operation).run.run memory = (.ok answer, after) ∧ next answer = .ok b := by
  rw [run_answered] at h
  obtain ⟨houtcome, hafter⟩ := Prod.mk.inj h
  obtain ⟨answer, hanswer, hnext⟩ := Outcome.bind_eq_ok_iff.mp houtcome
  exact ⟨answer, Prod.ext hanswer hafter, hnext⟩

theorem found_eq_ok_iff {id className : String} {found? : Option Object} {object : Object} :
    Database.found id className found? = .ok object ↔ found? = some object := by
  cases found? <;> simp [Database.found]

/-- What there is to fetch under an id. -/
def stored (memory : Memory) (className id : String) : Outcome Object :=
  match memory.record? className id with
  | none => .error (.objectNotFound id className)
  | some record => Object.ofRecord className record

theorem stored_of_record? {memory : Memory} {className id : String} {record : Fields} (h : memory.record? className id = some record) :
    memory.stored className id = Object.ofRecord className record := by
  rw [stored, h]

theorem stored_of_missing {memory : Memory} {className id : String} (h : memory.record? className id = none) :
    memory.stored className id = .error (.objectNotFound id className) := by
  rw [stored, h]

/-- Whether both ways to fetch an id end in the same way, and change nothing. -/
structure Fetches (patience : Nat) (memory : Memory) (className id : String) (outcome : Outcome Object) : Prop where
  database : ∀ inTransaction, ((Database.fetch className id).run (backend patience) inTransaction).run memory = (outcome, memory)
  collection : ∀ inTransaction,
    ((Collection.fetch { className } id).run (backend patience) inTransaction).run memory = (outcome, memory)

section Fetch

variable {memory : Memory} (hkept : memory.Kept) (hdistinct : memory.Distinct) (patience : Nat) {className : String}
  (hclass : className.isEmpty = false) (id : String)

include hkept hdistinct hclass

theorem run_first_byId :
    (perform patience (.first { className, filters := [Database.idFilter id] })).run.run memory =
      (match memory.record? className id with
        | none => .ok none
        | some record => (Object.ofRecord className record).map some, memory) := by
  have hvalid : ({ className, filters := [Database.idFilter id] } : FindQuery).validate = .ok () := if_neg (by simp [hclass])
  rw [run_first hvalid, selectObjects_byId (hkept.tableOf className) (hdistinct.tableOf className) rfl rfl rfl rfl className, record?]
  cases OrderedMap.get? (memory.tableOf className) id with
  | none => rfl
  | some record =>
    dsimp only
    cases Object.ofRecord className record <;> rfl

/-- A fetch reads the record of the id, or fails because there is none. -/
theorem fetches_stored : Fetches patience memory className id (memory.stored className id) := by
  have hfetch (inTransaction : Bool) :
      ((Database.fetch className id).run (backend patience) inTransaction).run memory = (memory.stored className id, memory) := by
    refine (run_answered patience inTransaction memory (.first { className, filters := [Database.idFilter id] })
      (Database.found id className)).trans ?_
    rw [run_first_byId hkept hdistinct patience hclass id, stored]
    cases memory.record? className id with
    | none => rfl
    | some record =>
      dsimp only
      cases Object.ofRecord className record <;> rfl
  exact ⟨hfetch, hfetch⟩

theorem Fetches.exists_record {patience : Nat} {id : String} {object : Object} (h : Fetches patience memory className id (.ok object)) :
    ∃ record, memory.record? className id = some record ∧ Object.ofRecord className record = .ok object := by
  have hfetches := fetches_stored hkept hdistinct patience hclass id
  have hstored : memory.stored className id = .ok object :=
    (Prod.mk.inj ((hfetches.database false).symm.trans (h.database false))).1
  cases hrecord : memory.record? className id with
  | none =>
    rw [stored_of_missing hrecord] at hstored
    cases hstored
  | some record => exact ⟨record, rfl, (stored_of_record? hrecord).symm.trans hstored⟩

end Fetch

/-! ### Other records -/

/-- The records of a class under other ids than one, in order. -/
def others (memory : Memory) (className id : String) : Table :=
  OrderedMap.filter (fun other _ => other != id) (memory.tableOf className)

/-- Whether nothing but the record of one id changed: the others of its class are the same in the same order, and so are the other classes. -/
structure ChangedAt (start after : Memory) (className id : String) : Prop where
  records : after.others className id = start.others className id
  classes : ∀ other, other ≠ className → OrderedMap.get? after.tables other = OrderedMap.get? start.tables other

theorem changedAt_setTable {start after : Memory} {className id : String} {table : Table}
    (hafter : after.tables = OrderedMap.insert start.tables className table)
    (htable : OrderedMap.filter (fun other _ => other != id) table = start.others className id) : ChangedAt start after className id := by
  constructor
  · rw [others, tableOf_setTable_self hafter, htable]
  · intro other hother
    rw [hafter, OrderedMap.get?_insert_of_ne (Ne.symm hother)]

/-! ### Saving -/

/-- Whether an object is what is read from a record that was stored under an id, while no other record changed. -/
structure Stored (start after : Memory) (className id : String) (record : Fields) (object : Object) : Prop where
  named : className.isEmpty = false
  tables : after.tables = OrderedMap.insert start.tables className (OrderedMap.insert (start.tableOf className) id record)
  read : Object.ofRecord className record = .ok object

namespace Stored

variable {start after : Memory} {className id : String} {record : Fields} {object : Object}
  (h : Stored start after className id record object)

include h

theorem record?_eq : after.record? className id = some record := by
  rw [record?, tableOf_setTable_self h.tables, OrderedMap.get?_insert_self]

theorem changedAt : ChangedAt start after className id :=
  changedAt_setTable h.tables (OrderedMap.filter_insert_other _ id record)

theorem id_eq (hkept : after.Kept) : object.id = some id :=
  (Object.readsAs_of_ofRecord h.read).id_eq (hkept.record h.record?_eq).id

theorem fetches (hkept : after.Kept) (hdistinct : after.Distinct) (patience : Nat) :
    Fetches patience after className id (.ok object) := by
  have hfetches := fetches_stored hkept hdistinct patience h.named id
  rwa [stored_of_record? h.record?_eq, h.read] at hfetches

end Stored

/-- The result of an action, if there is one, satisfies a condition with the state that the action leaves. -/
structure Gives {α : Type} (post : α → Memory → Prop) (outcome : Outcome α) (after : Memory) : Prop where
  given : ∀ a, outcome = .ok a → post a after

section Gives

variable {α : Type} {post : α → Memory → Prop} {after : Memory}

theorem gives_ok {a : α} (h : post a after) : Gives post (.ok a) after := by
  constructor
  rintro _ ⟨rfl⟩
  exact h

theorem gives_error (failure : Failure) : Gives post (.error failure) after := by
  constructor
  rintro _ ⟨⟩

end Gives

/-- What an insertion stores. -/
def Inserted (start : Memory) (className : String) (fields : Fields) (object : Object) (after : Memory) : Prop :=
  ∃ id stamp, start.record? className id = none ∧ Stored start after className id (Fields.stamped (.string id) stamp fields) object

/-- What an update of an id stores if it finds a record. -/
def Replaced (start : Memory) (className id : String) (mutations : Updates) : Option Object → Memory → Prop
  | none, _ => True
  | some object, after => ∃ before updated stamp, start.record? className id = some before ∧
    mutations.applyTo before = .ok updated ∧
    Stored start after className id (OrderedMap.insert updated FieldName.physicalUpdatedAt stamp) object

/-- What a deletion of an id removes if it finds a record. -/
def Removed (start : Memory) (className id : String) : Option Object → Memory → Prop
  | none, _ => True
  | some _, after => className.isEmpty = false ∧
    after.tables = OrderedMap.insert start.tables className (OrderedMap.erase (start.tableOf className) id)

section Writes

variable {memory : Memory} {className : String}

theorem inserted_insertOnce {current : Memory} (hsame : current.tables = memory.tables) (hclass : className.isEmpty = false)
    (fields : Fields) : Ends (insertOnce className fields) current (Gives (Inserted memory className fields)) := by
  refine ends_bind (ends_now.mpr ?_)
  refine ends_bind (ends_drawId.mpr ?_)
  refine ends_bind (ends_openSame fun opened hopened => ?_)
  refine ends_bind (ends_insertRecord (fun _ => gives_error _) fun hfree => ends_lift.mpr ⟨fun object hread => ?_⟩)
  have htable := tableOf_congr hsame className
  refine ⟨_, _, ?_, hclass, ?_, hread⟩
  · rw [OrderedMap.contains, Option.isSome_eq_false_iff, Option.isNone_iff_eq_none] at hfree
    rw [record?, ← htable]
    exact hfree
  · rw [← htable, ← hsame]
    exact hopened.insert _

theorem inserted_perform (h : memory.Kept) (patience : Nat) (fields : Fields) :
    Ends (perform patience (.insert className fields)) memory (Gives (Inserted memory className fields)) := by
  rw [perform]
  split
  · exact gives_error _
  · next hclass =>
    refine ends_check gives_error fun hnames => ?_
    have hfields := FieldName.rejectReserved_eq_ok_iff.mp hnames
    exact ends_retryKept (fun _ => True) (fun current hcurrent => safe_insertOnce hcurrent className hfields)
      (fun current hsame _ _ => inserted_insertOnce hsame (Bool.eq_false_iff.mpr hclass) fields) (fun _ _ _ => trivial) none patience
      h trivial

theorem replaced_perform (h : memory.Kept) (hdistinct : memory.Distinct) (patience : Nat) (id : String) {mutations : Updates}
    (hmutations : mutations.Distinct) :
    Ends (perform patience (.update { className, filters := [Database.idFilter id], update := mutations })) memory
      (Gives (Replaced memory className id mutations)) := by
  refine ends_check gives_error fun hvalid => ends_check gives_error fun hnames => ?_
  have hphysical : mutations.toPhysical = mutations := OrderedMap.mapKeys_eq_self hmutations fun key hkey =>
    FieldName.toPhysical_of_not_reserved (FieldName.rejectReserved_eq_ok_iff.mp hnames key hkey)
  refine ends_bind (ends_now.mpr ?_)
  refine ends_bind (ends_table?.mpr ?_)
  cases htable : OrderedMap.get? memory.tables className with
  | none => exact gives_ok trivial
  | some table =>
    obtain rfl := tableOf_of_get? htable
    refine ends_bind (ends_replaceMatch (fun _ => gives_ok trivial) (fun failure _ => gives_error failure) ?_)
    rintro other before updated _ image hmatch hupdated rfl rfl
    obtain ⟨hentry, rfl⟩ := mem_matching_byId (h.tableOf className) hmatch
    have happlied := applyTo_of_applyUpdates hupdated
    rw [show FindOneQuery.update _ = _ from hphysical] at happlied
    refine ends_bind (ends_lift.mpr ?_)
    show andNext _ _ (Object.ofRecord className (OrderedMap.insert updated FieldName.physicalUpdatedAt _)) _
    cases hread : Object.ofRecord className (OrderedMap.insert updated FieldName.physicalUpdatedAt _) with
    | error failure => exact gives_error failure
    | ok object =>
      have hbefore : memory.record? className other = some before := OrderedMap.get?_of_mem (hdistinct.tableOf className) hentry
      exact gives_ok ⟨before, updated, _, hbefore, happlied, FindOneQuery.validate_eq_ok_iff.mp hvalid, rfl, hread⟩

theorem removed_perform (h : memory.Kept) (patience : Nat) (id : String) :
    Ends (perform patience (.delete { className, filters := [Database.idFilter id] })) memory
      (Gives (Removed memory className id)) := by
  refine ends_check gives_error fun hvalid => ?_
  refine ends_bind (ends_table?.mpr ?_)
  cases htable : OrderedMap.get? memory.tables className with
  | none => exact gives_ok trivial
  | some table =>
    obtain rfl := tableOf_of_get? htable
    simp only [andNext]
    cases hfirst : (selectEntries (memory.tableOf className)
      (FindOneQuery.toPhysical { className, filters := [Database.idFilter id] }).asFind).head? with
    | none => exact gives_ok trivial
    | some entry =>
      obtain ⟨-, rfl⟩ := mem_matching_byId (h.tableOf className) (mem_matching_of_mem_selectEntries (List.mem_of_head? hfirst))
      refine ends_bind (ends_setTable.mpr ?_)
      refine ends_bind (ends_lift.mpr ?_)
      show andNext _ _ (Object.ofRecord className entry.2) _
      cases Object.ofRecord className entry.2 with
      | error failure => exact gives_error failure
      | ok object => exact gives_ok ⟨FindOneQuery.validate_eq_ok_iff.mp hvalid, rfl⟩

end Writes

/-- Whether a draft is of an object that is new, or of one as it is stored. -/
structure UpToDate (patience : Nat) (memory : Memory) (draft : Draft) : Prop where
  mutations : draft.mutations.Distinct
  object : (draft.object.id = none ∧ draft.object.data.Distinct) ∨
    ∃ id, Fetches patience memory draft.object.className id (.ok draft.object)

/-- What it means that a draft was saved as an object. -/
structure Saved (patience : Nat) (start : Memory) (draft : Draft) (id : String) (object : Object) (after : Memory) : Prop where
  identified : object.id = some id
  className : object.className = draft.object.className
  /-- A new object gets a new id, and any other keeps its own. -/
  target : match draft.object.id with
    | none => start.record? draft.object.className id = none
    | some known => known = id
  fetched : Fetches patience after object.className id (.ok object)
  others : ChangedAt start after object.className id
  preview : ∀ key, FieldName.isReserved key = false → draft.preview key = .ok (object.get? key)

section Save

variable {patience : Nat} {memory after : Memory} {draft : Draft} {object : Object} (hafter : Reachable patience after)

include hafter

theorem Stored.saved {id : String} {record : Fields} (hstored : Stored memory after draft.object.className id record object)
    (htarget : match draft.object.id with
      | none => memory.record? draft.object.className id = none
      | some known => known = id)
    (hpreview : ∀ key, FieldName.isReserved key = false → draft.preview key = .ok (object.get? key)) :
    Saved patience memory draft id object after := by
  have hclass : object.className = draft.object.className := (Object.readsAs_of_ofRecord hstored.read).className
  refine ⟨hstored.id_eq hafter.kept, hclass, htarget, ?_, ?_, hpreview⟩
  · rw [hclass]
    exact hstored.fetches hafter.kept hafter.distinct patience
  · rw [hclass]
    exact hstored.changedAt

variable (h : Reachable patience memory) (hdraft : UpToDate patience memory draft)

include h hdraft

theorem saved_inserted (hid : draft.object.id = none) {fields : Fields} (hfields : draft.insertFields = .ok fields)
    (hinserted : Inserted memory draft.object.className fields object after) :
    ∃ id, Saved patience memory draft id object after := by
  obtain ⟨id, stamp, hnone, hstored⟩ := hinserted
  have hdata : draft.object.data.Distinct := by
    -- an object without an id is none that was fetched
    rcases hdraft.object with ⟨-, hdata⟩ | ⟨known, hfetches⟩
    · exact hdata
    · obtain ⟨before, hbefore, hread⟩ := hfetches.exists_record h.kept h.distinct hstored.named
      have hknown := (Object.readsAs_of_ofRecord hread).id_eq (h.kept.record hbefore).id
      cases hid.symm.trans hknown
  refine ⟨id, hstored.saved hafter ?_ fun key hkey => ?_⟩
  · rw [hid]
    exact hnone
  · exact Draft.preview_inserted hdraft.mutations hkey hdata hfields (Object.readsAs_of_ofRecord hstored.read)

theorem saved_replaced {id : String} (hid : draft.object.id = some id)
    (hreplaced : Replaced memory draft.object.className id draft.mutations (some object) after) :
    ∃ id, Saved patience memory draft id object after := by
  obtain ⟨before, updated, stamp, hbefore, happlied, hstored⟩ := hreplaced
  have hshown : Object.ReadsAs draft.object.className before draft.object := by
    -- the record that is updated is the one that the object was fetched from, for both have its id
    rcases hdraft.object with ⟨hnone, -⟩ | ⟨known, hfetches⟩
    · cases hnone.symm.trans hid
    · obtain ⟨record, hrecord, hread⟩ := hfetches.exists_record h.kept h.distinct hstored.named
      have hread := Object.readsAs_of_ofRecord hread
      obtain rfl := Option.some.inj ((hread.id_eq (h.kept.record hrecord).id).symm.trans hid)
      obtain rfl := Option.some.inj (hrecord.symm.trans hbefore)
      exact hread
  refine ⟨id, hstored.saved hafter ?_ fun key hkey => ?_⟩
  · rw [hid]
  · exact Draft.preview_updated hdraft.mutations hkey hshown (h.distinct_record hbefore) happlied
      (Object.readsAs_of_ofRecord hstored.read)

end Save

section Run

variable {patience : Nat} {memory : Memory} {inTransaction : Bool}

/-- A draft is saved by an insertion or by an update. -/
theorem run_save_ok {draft : Draft} {object : Object} {after : Memory}
    (hrun : ((Database.save draft).run (backend patience) inTransaction).run memory = (.ok object, after)) :
    (draft.object.id = none ∧ ∃ fields, draft.insertFields = .ok fields ∧
      (perform patience (.insert draft.object.className fields)).run.run memory = (.ok object, after)) ∨
    ∃ id, draft.object.id = some id ∧
      (perform patience (.update
        { className := draft.object.className, filters := [Database.idFilter id], update := draft.mutations })).run.run memory =
        (.ok (some object), after) := by
  rw [Database.save] at hrun
  cases hnames : FieldName.rejectReserved (OrderedMap.keys draft.mutations) with
  | error failure =>
    rw [hnames] at hrun
    cases hrun
  | ok =>
    rw [hnames] at hrun
    dsimp only at hrun
    cases hid : draft.object.id with
    | none =>
      rw [hid] at hrun
      cases hfields : draft.insertFields with
      | error failure =>
        rw [hfields] at hrun
        cases hrun
      | ok fields =>
        rw [hfields] at hrun
        exact .inl ⟨rfl, fields, rfl, hrun⟩
    | some id =>
      rw [hid] at hrun
      obtain ⟨found?, hperformed, hfound⟩ := run_answered_ok (.update
        { className := draft.object.className, filters := [Database.idFilter id], update := draft.mutations }) hrun
      obtain rfl := found_eq_ok_iff.mp hfound
      exact .inr ⟨id, rfl, hperformed⟩

theorem run_delete_ok {object : Object} {after : Memory}
    (hrun : ((Database.delete object).run (backend patience) inTransaction).run memory = (.ok (), after)) :
    ∃ id deleted, object.id = some id ∧
      (perform patience (.delete { className := object.className, filters := [Database.idFilter id] })).run.run memory =
        (.ok (some deleted), after) := by
  rw [Database.delete] at hrun
  cases hid : object.id with
  | none =>
    rw [hid] at hrun
    cases hrun
  | some id =>
    rw [hid] at hrun
    obtain ⟨found?, hperformed, hfound⟩ :=
      run_answered_ok (.delete { className := object.className, filters := [Database.idFilter id] }) hrun
    obtain ⟨deleted, hdeleted, -⟩ := Outcome.map_eq_ok_iff.mp hfound
    obtain rfl := found_eq_ok_iff.mp hdeleted
    exact ⟨id, deleted, rfl, hperformed⟩

theorem saved_of_run (h : Reachable patience memory) {draft : Draft} (hdraft : UpToDate patience memory draft) {object : Object}
    {after : Memory} (hafter : Reachable patience after)
    (hrun : ((Database.save draft).run (backend patience) inTransaction).run memory = (.ok object, after)) :
    ∃ id, Saved patience memory draft id object after := by
  rcases run_save_ok hrun with ⟨hid, fields, hfields, hperformed⟩ | ⟨id, hid, hperformed⟩
  · have hinserted := (inserted_perform h.kept patience fields).of_run hperformed
    exact saved_inserted hafter h hdraft hid hfields (hinserted.given object rfl)
  · have hreplaced := (replaced_perform h.kept h.distinct patience id hdraft.mutations).of_run hperformed
    exact saved_replaced hafter h hdraft hid (hreplaced.given (some object) rfl)

theorem deleted_of_run (h : Reachable patience memory) {object : Object} {after : Memory} (hafter : Reachable patience after)
    (hrun : ((Database.delete object).run (backend patience) inTransaction).run memory = (.ok (), after)) :
    ∃ id, object.id = some id ∧ Fetches patience after object.className id (.error (.objectNotFound id object.className)) ∧
      ChangedAt memory after object.className id := by
  obtain ⟨id, deleted, hid, hperformed⟩ := run_delete_ok hrun
  obtain ⟨hclass, htables⟩ := ((removed_perform h.kept patience id).of_run hperformed).given (some deleted) rfl
  have hmissing : after.record? object.className id = none := by
    rw [record?, tableOf_setTable_self htables]
    exact OrderedMap.get?_erase_self (h.distinct.tableOf object.className) id
  have hfetches := fetches_stored hafter.kept hafter.distinct patience hclass id
  rw [stored_of_missing hmissing] at hfetches
  exact ⟨id, hid, hfetches, changedAt_setTable htables (OrderedMap.filter_erase_other _ id)⟩

end Run

/-- An object that was saved from a draft is the one that is fetched under its id, and shows what the draft previewed. One that was deleted is not found any more. Nothing happens to the other records. -/
theorem saved_objects_stored {patience : Nat} {memory : Memory} (h : Reachable patience memory) (inTransaction : Bool) :
    (∀ draft object after, UpToDate patience memory draft →
      ((Database.save draft).run (backend patience) inTransaction).run memory = (.ok object, after) →
      ∃ id, Saved patience memory draft id object after) ∧
    ∀ object after, ((Database.delete object).run (backend patience) inTransaction).run memory = (.ok (), after) →
      ∃ id, object.id = some id ∧ Fetches patience after object.className id (.error (.objectNotFound id object.className)) ∧
        ChangedAt memory after object.className id := by
  refine ⟨fun draft object after hdraft hrun => ?_, fun object after hrun => ?_⟩
  · have hafter := h.run (Database.save draft) inTransaction
    rw [hrun] at hafter
    exact saved_of_run h hdraft hafter hrun
  · have hafter := h.run (Database.delete object) inTransaction
    rw [hrun] at hafter
    exact deleted_of_run h hafter hrun

/-- The one dog as it is stored, after a visit and without its name. -/
def visitedDog : Draft where
  object := (oneDog.stored "Dog" "A").toOption.getD { className := "Dog" }
  mutations := [("visits", .increment (.integer 1)), ("name", .unset)]

theorem visitedDog_stored :
    ∃ dog after gone, ((Database.save visitedDog).run (backend 2) false).run oneDog = (.ok dog, after) ∧
      Fetches 2 after "Dog" "A" (.ok dog) ∧ dog.get? "visits" = some (.integer 1) ∧ dog.get? "name" = none ∧
      ((Database.delete dog).run (backend 2) false).run after = (.ok (), gone) ∧
      Fetches 2 gone "Dog" "A" (.error (.objectNotFound "A" "Dog")) := by
  have hdraft : UpToDate 2 oneDog visitedDog :=
    ⟨by decide, .inr ⟨"A", fetches_stored reachable_oneDog.kept reachable_oneDog.distinct 2 (by decide) "A"⟩⟩
  have hrun : ∃ dog after gone, ((Database.save visitedDog).run (backend 2) false).run oneDog = (.ok dog, after) ∧
      ((Database.delete dog).run (backend 2) false).run after = (.ok (), gone) := ⟨_, _, _, rfl, rfl⟩
  obtain ⟨dog, after, gone, hsaved, hdeleted⟩ := hrun
  have hafter : Reachable 2 after := by
    have hreachable := reachable_oneDog.run (Database.save visitedDog) false
    rwa [hsaved] at hreachable
  obtain ⟨id, hdog⟩ := (saved_objects_stored reachable_oneDog false).1 visitedDog dog after hdraft hsaved
  obtain rfl : "A" = id := hdog.target
  have hclass : dog.className = "Dog" := hdog.className
  obtain ⟨other, hother, hgone, -⟩ := (saved_objects_stored hafter false).2 dog gone hdeleted
  obtain rfl := Option.some.inj (hdog.identified.symm.trans hother)
  refine ⟨dog, after, gone, hsaved, ?_, ?_, ?_, hdeleted, ?_⟩
  · exact hclass ▸ hdog.fetched
  · exact (Except.ok.inj (hdog.preview "visits" (by decide))).symm
  · exact (Except.ok.inj (hdog.preview "name" (by decide))).symm
  · exact hclass ▸ hgone

end Memory

end ObjectStore
