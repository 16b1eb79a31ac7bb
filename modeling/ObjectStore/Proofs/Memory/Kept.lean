import ObjectStore.Proofs.Memory.Action
import ObjectStore.Proofs.Memory.Select
import ObjectStore.Proofs.Object
import ObjectStore.Proofs.Sources
import ObjectStore.Proofs.Update

/-!
# What the in-memory store keeps

Every stored record carries the id that it is stored under, and two stamps of which the second is at least the first and at most the last stamp that was handed out. Callers' names for these fields are never names of stored fields. Operations read the reserved fields of a record, write new ones as a whole, and change the second stamp; everything else that they write goes to names that passed the check for reserved names.

An operation that fails leaves all tables as they were. It may have taken stamps and identifiers, so what holds of the state afterwards is said relative to the last stamp before.
-/

namespace ObjectStore

namespace Memory

/-- A record as it is stored under an id, when no stamp is greater than the last one. -/
structure KeptRecord (last : Int) (id : String) (record : Fields) : Prop where
  id : OrderedMap.get? record FieldName.physicalId = some (.string id)
  stamps : ∃ created updated, Instant.firstMicros ≤ created ∧ created ≤ updated ∧ updated ≤ last ∧
    OrderedMap.get? record FieldName.physicalCreatedAt = some (.timestamp (WriteClock.micros.instant created)) ∧
    OrderedMap.get? record FieldName.physicalUpdatedAt = some (.timestamp (WriteClock.micros.instant updated))
  aliases : ∀ name ∈ [FieldName.id, FieldName.createdAt, FieldName.updatedAt], OrderedMap.get? record name = none

def KeptTable (last : Int) (table : Table) : Prop := ∀ entry ∈ table, KeptRecord last entry.1 entry.2

/-- A state of the store as operations leave it. -/
structure Kept (memory : Memory) : Prop where
  sources : memory.sources.Sound
  tables : ∀ entry ∈ memory.tables, KeptTable memory.sources.last entry.2

/-! ### Records -/

/-- Updates of a stored record are updates of its fields, if they leave the id alone. -/
theorem applyTo_of_applyUpdates {updates : Updates} {record updated : Fields} (h : applyUpdates updates record = .ok updated) :
    updates.applyTo record = .ok updated := by
  induction updates generalizing record with
  | nil => exact h
  | cons entry rest ih =>
    obtain ⟨key, update⟩ := entry
    rw [applyUpdates, List.foldlM_cons] at h
    dsimp only at h
    rw [Updates.applyTo_cons]
    by_cases hid : key = "_id"
    · rw [if_pos hid] at h
      cases h
    · rw [if_neg hid] at h
      cases hvalue : update.apply (OrderedMap.get? record key) with
      | error failure =>
        rw [hvalue] at h
        cases h
      | ok value =>
        rw [hvalue] at h
        exact ih h

theorem raceless_applyUpdates (updates : Updates) (record : Fields) : Outcome.Raceless (applyUpdates updates record) := by
  refine Outcome.Raceless.foldlM ?_ updates record
  rintro record ⟨key, update⟩
  dsimp only
  split
  · exact Outcome.Raceless.error rfl
  · exact (update.raceless_apply _).bind fun _ => .ok _

namespace KeptRecord

variable {last : Int} {id : String} {record : Fields}

theorem mono (h : KeptRecord last id record) {later : Int} (hlater : last ≤ later) : KeptRecord later id record := by
  obtain ⟨created, updated, hfirst, horder, hlast, hstamps⟩ := h.stamps
  exact ⟨h.id, ⟨created, updated, hfirst, horder, by omega, hstamps⟩, h.aliases⟩

theorem of_reserved (h : KeptRecord last id record) {changed : Fields}
    (hsame : ∀ name, FieldName.isReserved name = true → OrderedMap.get? changed name = OrderedMap.get? record name) :
    KeptRecord last id changed := by
  obtain ⟨created, updated, hfirst, horder, hlast, hcreated, hupdated⟩ := h.stamps
  refine ⟨?_, ⟨created, updated, hfirst, horder, hlast, ?_, ?_⟩, fun name hname => ?_⟩
  · rw [hsame _ (by decide), h.id]
  · rw [hsame _ (by decide), hcreated]
  · rw [hsame _ (by decide), hupdated]
  · rw [hsame name (FieldName.isReserved_of_mem (List.mem_append_left _ hname)), h.aliases name hname]

theorem stamp (h : KeptRecord last id record) {now : Int} (hnow : last ≤ now) :
    KeptRecord now id
      (OrderedMap.insert record FieldName.physicalUpdatedAt (.timestamp (WriteClock.micros.instant now))) := by
  obtain ⟨created, updated, hfirst, horder, hlast, hcreated, -⟩ := h.stamps
  refine ⟨?_, ⟨created, now, hfirst, by omega, Int.le_refl now, ?_, OrderedMap.get?_insert_self _ _ _⟩, fun name hname => ?_⟩
  · rw [OrderedMap.get?_insert_of_ne (by decide), h.id]
  · rw [OrderedMap.get?_insert_of_ne (by decide), hcreated]
  · have hne : FieldName.physicalUpdatedAt ≠ name := by
      rintro rfl
      revert hname
      decide
    rw [OrderedMap.get?_insert_of_ne hne, h.aliases name hname]

theorem stamped {now : Int} (hfirst : Instant.firstMicros ≤ now) (id : String) {fields : Fields}
    (hfields : ∀ name ∈ OrderedMap.keys fields, FieldName.isReserved name = false) :
    KeptRecord now id (Fields.stamped (.string id) (.timestamp (WriteClock.micros.instant now)) fields) := by
  have hget {name : String} (hname : FieldName.isReserved name = true) :=
    Fields.get?_stamped hfields (.string id) (.timestamp (WriteClock.micros.instant now)) hname
  refine ⟨hget (by decide), ⟨now, now, hfirst, Int.le_refl now, Int.le_refl now, hget (by decide), hget (by decide)⟩,
    fun name hname => ?_⟩
  rw [hget (FieldName.isReserved_of_mem (List.mem_append_left _ hname))]
  simp only [List.mem_cons, List.not_mem_nil, or_false] at hname
  rcases hname with rfl | rfl | rfl <;> rfl

theorem ofRecord_project (h : KeptRecord last id record) (className : String) (includes : Option NameSet) :
    ∃ object, Object.ofRecord className (project includes record) = .ok object := by
  obtain ⟨created, updated, -, -, -, hcreated, hupdated⟩ := h.stamps
  have hget (name : String) : OrderedMap.get? (project includes record) name = none ∨
      OrderedMap.get? (project includes record) name = OrderedMap.get? record name := by
    cases includes with
    | none => exact Or.inr rfl
    | some names =>
      rw [project, OrderedMap.get?_filter]
      split
      · exact Or.inr rfl
      · exact Or.inl rfl
  refine Object.ofRecord_eq_ok className ?_ fun name hname => ?_
  · exact (hget _).imp_right fun same => ⟨id, same.trans h.id⟩
  · refine (hget name).imp_right fun same => ?_
    simp only [List.mem_cons, List.not_mem_nil, or_false] at hname
    rcases hname with rfl | rfl
    · exact ⟨_, same.trans hcreated⟩
    · exact ⟨_, same.trans hupdated⟩

theorem ofRecord (h : KeptRecord last id record) (className : String) :
    ∃ object, Object.ofRecord className record = .ok object :=
  h.ofRecord_project className none

theorem get?_applyUpdates {updates : Updates} {record updated : Fields} (h : Memory.applyUpdates updates record = .ok updated)
    {name : String} (hname : name ∉ OrderedMap.keys updates) : OrderedMap.get? updated name = OrderedMap.get? record name :=
  Updates.get?_applyTo_of_not_mem (applyTo_of_applyUpdates h) hname

theorem applyUpdates (h : KeptRecord last id record) {updates : Updates}
    (hupdates : ∀ name, FieldName.isReserved name = true → name ∉ OrderedMap.keys updates) {updated : Fields}
    (hupdated : Memory.applyUpdates updates record = .ok updated) : KeptRecord last id updated :=
  h.of_reserved fun name hname => get?_applyUpdates hupdated (hupdates name hname)

end KeptRecord

/-! ### Tables -/

namespace KeptTable

variable {last : Int} {table : Table}

theorem mono (h : KeptTable last table) {later : Int} (hlater : last ≤ later) : KeptTable later table :=
  fun entry hentry => (h entry hentry).mono hlater

theorem sublist (h : KeptTable last table) {fewer : Table} (hfewer : fewer.Sublist table) : KeptTable last fewer :=
  fun entry hentry => h entry (hfewer.subset hentry)

theorem insert (h : KeptTable last table) {id : String} {record : Fields} (hrecord : KeptRecord last id record) :
    KeptTable last (OrderedMap.insert table id record) := by
  intro entry hentry
  rcases OrderedMap.mem_insert hentry with rfl | hentry
  · exact hrecord
  · exact h entry hentry

theorem eraseColumns (h : KeptTable last table) {columns : List String}
    (hcolumns : FieldName.rejectReserved columns = .ok ()) :
    KeptTable last (table.map fun entry => (entry.1, columns.foldl OrderedMap.erase entry.2)) := by
  intro entry hentry
  obtain ⟨before, hbefore, rfl⟩ := List.mem_map.mp hentry
  refine (h before hbefore).of_reserved fun name hname => OrderedMap.get?_foldl_erase ?_ before.2
  intro hmem
  rw [FieldName.rejectReserved_eq_ok_iff.mp hcolumns name hmem] at hname
  cases hname

end KeptTable

/-! ### States -/

/-- What holds after an operation: the state is as operations leave it, and a failure changed no table. -/
structure Safe {α : Type} (start : Memory) (outcome : Outcome α) (after : Memory) : Prop where
  kept : after.Kept
  later : start.sources.last ≤ after.sources.last
  unchanged : ∀ failure, outcome = .error failure → after.tables = start.tables

theorem Safe.of_later {α : Type} {start memory after : Memory} {outcome : Outcome α} (h : Safe memory outcome after)
    (hlater : start.sources.last ≤ memory.sources.last) (hsame : memory.tables = start.tables) : Safe start outcome after :=
  ⟨h.kept, Int.le_trans hlater h.later, fun failure hfailure => (h.unchanged failure hfailure).trans hsame⟩

namespace Kept

variable {memory : Memory} {className : String} {table : Table}

theorem keptTable (h : memory.Kept) (htable : OrderedMap.get? memory.tables className = some table) :
    KeptTable memory.sources.last table :=
  h.tables _ (OrderedMap.mem_of_get? htable)

/-- Everything that is kept stays kept when further stamps are handed out. -/
theorem withSources (h : memory.Kept) {sources : Sources} (hsources : sources.Sound) (hlater : memory.sources.last ≤ sources.last) :
    Kept { memory with sources } :=
  ⟨hsources, fun entry hentry => (h.tables entry hentry).mono hlater⟩

theorem setTable (h : memory.Kept) (htable : KeptTable memory.sources.last table) :
    Kept { memory with tables := OrderedMap.insert memory.tables className table } := by
  refine ⟨h.sources, fun entry hentry => ?_⟩
  rcases OrderedMap.mem_insert hentry with rfl | hentry
  · exact htable
  · exact h.tables entry hentry

theorem safe_ok {α : Type} (h : memory.Kept) (answer : α) : Safe memory (.ok answer) memory :=
  ⟨h, Int.le_refl _, nofun⟩

theorem safe {α : Type} (h : memory.Kept) (outcome : Outcome α) : Safe memory outcome memory :=
  ⟨h, Int.le_refl _, fun _ _ => rfl⟩

end Kept

end Memory

end ObjectStore
