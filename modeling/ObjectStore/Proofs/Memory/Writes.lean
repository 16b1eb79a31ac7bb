import ObjectStore.Proofs.Memory.Reachable

/-!
# What operations of the in-memory store write

An insertion, an update that finds a record, and an update-or-insert each replace or add one record, and stamp it with the last stamp that they took. A new record has that stamp for its creation too, and a replaced one keeps the stamp of its creation. The other operations remove records, or fields that are not reserved. So a record keeps the stamp of its creation for as long as it is stored.
-/

namespace ObjectStore

namespace Memory

/-- The records of a class; a class without a table has none. -/
def tableOf (memory : Memory) (className : String) : Table := (OrderedMap.get? memory.tables className).getD []

/-- The record that is stored under an id. -/
def record? (memory : Memory) (className id : String) : Option Fields := OrderedMap.get? (memory.tableOf className) id

/-- Every class has one table, and in it every id has one record. -/
structure Distinct (memory : Memory) : Prop where
  classes : OrderedMap.Distinct memory.tables
  ids : ∀ entry ∈ memory.tables, OrderedMap.Distinct entry.2

section Tables

variable {memory start after : Memory} {className : String} {table : Table}

theorem tableOf_of_get? (h : OrderedMap.get? memory.tables className = some table) : memory.tableOf className = table := by
  rw [tableOf, h, Option.getD_some]

theorem tableOf_of_missing (h : OrderedMap.get? memory.tables className = none) : memory.tableOf className = [] := by
  rw [tableOf, h, Option.getD_none]

theorem tableOf_congr (h : after.tables = start.tables) (className : String) : after.tableOf className = start.tableOf className := by
  rw [tableOf, tableOf, h]

theorem record?_congr (h : after.tables = start.tables) (className id : String) : after.record? className id = start.record? className id := by
  rw [record?, record?, tableOf_congr h]

theorem tableOf_setTable (h : after.tables = OrderedMap.insert start.tables className table) (other : String) :
    after.tableOf other = if className = other then table else start.tableOf other := by
  rw [tableOf, tableOf, h, OrderedMap.get?_insert]
  split <;> rfl

theorem tableOf_setTable_self (h : after.tables = OrderedMap.insert start.tables className table) : after.tableOf className = table := by
  rw [tableOf_setTable h, if_pos rfl]

/-- The table of a class is there or was made, and no class has other records than before. -/
structure Opened (memory opened : Memory) (className : String) : Prop where
  sources : opened.sources = memory.sources
  records : ∀ other, opened.tableOf other = memory.tableOf other
  insert : ∀ table, OrderedMap.insert opened.tables className table = OrderedMap.insert memory.tables className table
  tables : memory.tableOf className ≠ [] → opened.tables = memory.tables

theorem ends_openSame {post : Outcome Table → Memory → Prop}
    (hpost : ∀ opened, Opened memory opened className → post (.ok (memory.tableOf className)) opened) :
    Ends (openTable className) memory post := by
  refine ends_openTable (fun table htable => ?_) fun hmissing => ?_
  · rw [← tableOf_of_get? htable]
    exact hpost memory ⟨rfl, fun _ => rfl, fun _ => rfl, fun _ => rfl⟩
  · rw [← tableOf_of_missing hmissing]
    refine hpost _ ⟨rfl, fun other => ?_, fun table => OrderedMap.insert_insert _ _ _ _, fun hsome => ?_⟩
    · rw [tableOf_setTable rfl]
      split
      · next same => rw [← same, tableOf_of_missing hmissing]
      · rfl
    · exact absurd (tableOf_of_missing hmissing) hsome

theorem Kept.tableOf (h : memory.Kept) (className : String) : KeptTable memory.sources.last (memory.tableOf className) := by
  cases htable : OrderedMap.get? memory.tables className with
  | none =>
    rw [tableOf_of_missing htable]
    exact nofun
  | some table =>
    rw [tableOf_of_get? htable]
    exact h.keptTable htable

theorem Kept.record (h : memory.Kept) {id : String} {record : Fields} (hrecord : memory.record? className id = some record) :
    KeptRecord memory.sources.last id record :=
  h.tableOf className _ (OrderedMap.mem_of_get? hrecord)

namespace Distinct

theorem tableOf (h : memory.Distinct) (className : String) : OrderedMap.Distinct (memory.tableOf className) := by
  cases htable : OrderedMap.get? memory.tables className with
  | none =>
    rw [tableOf_of_missing htable]
    exact List.nodup_nil
  | some table =>
    rw [tableOf_of_get? htable]
    exact h.ids _ (OrderedMap.mem_of_get? htable)

theorem congr (h : start.Distinct) (hsame : after.tables = start.tables) : after.Distinct := by
  refine ⟨?_, ?_⟩
  · rw [hsame]
    exact h.classes
  · rw [hsame]
    exact h.ids

theorem setTable (h : start.Distinct) (hafter : after.tables = OrderedMap.insert start.tables className table)
    (htable : OrderedMap.Distinct table) : after.Distinct := by
  constructor
  · rw [hafter]
    exact OrderedMap.distinct_insert h.classes className table
  · intro entry hentry
    rw [hafter] at hentry
    rcases OrderedMap.mem_insert hentry with rfl | hold
    · exact htable
    · exact h.ids entry hold

end Distinct

end Tables

/-! ### Creation is never restamped -/

/-- Whether a record keeps the stamp of its creation if it stays in a table that changes. -/
def KeepsCreation (table changed : Table) : Prop :=
  ∀ id old new, OrderedMap.get? table id = some old → OrderedMap.get? changed id = some new →
    OrderedMap.get? new FieldName.physicalCreatedAt = OrderedMap.get? old FieldName.physicalCreatedAt

/-- What an operation preserves: classes and ids stay distinct, and records keep the stamp of their creation. -/
structure Preserves (start after : Memory) : Prop where
  distinct : after.Distinct
  creation : ∀ className, KeepsCreation (start.tableOf className) (after.tableOf className)

section Preserves

variable {start after : Memory} {className : String} {table changed : Table}

theorem keepsCreation_refl (table : Table) : KeepsCreation table table := by
  intro id old new hold hnew
  rw [Option.some.inj (hnew.symm.trans hold)]

theorem keepsCreation_sublist (hdistinct : OrderedMap.Distinct table) (h : changed.Sublist table) : KeepsCreation table changed := by
  intro id old new hold hnew
  have hstill := OrderedMap.get?_of_mem hdistinct (h.subset (OrderedMap.mem_of_get? hnew))
  rw [Option.some.inj (hstill.symm.trans hold)]

theorem keepsCreation_eraseColumns {columns : List String} (hcolumns : FieldName.rejectReserved columns = .ok ()) (table : Table) :
    KeepsCreation table (table.map fun entry => (entry.1, columns.foldl OrderedMap.erase entry.2)) := by
  intro id old new hold hnew
  rw [OrderedMap.get?_map (fun record => columns.foldl OrderedMap.erase record), hold] at hnew
  obtain rfl := Option.some.inj hnew
  apply OrderedMap.get?_foldl_erase
  intro hmem
  have hplain := FieldName.rejectReserved_eq_ok_iff.mp hcolumns _ hmem
  revert hplain
  decide

theorem preserves_of_tables_eq (h : start.Distinct) (hsame : after.tables = start.tables) : Preserves start after := by
  refine ⟨h.congr hsame, fun className => ?_⟩
  rw [tableOf_congr hsame]
  exact keepsCreation_refl _

theorem preserves_setTable (h : start.Distinct) (hafter : after.tables = OrderedMap.insert start.tables className changed)
    (hdistinct : OrderedMap.Distinct changed) (hcreation : KeepsCreation (start.tableOf className) changed) : Preserves start after := by
  refine ⟨h.setTable hafter hdistinct, fun other => ?_⟩
  rw [tableOf_setTable hafter]
  split
  · next same =>
    subst same
    exact hcreation
  · exact keepsCreation_refl _

theorem preserves_sublist (h : start.Distinct) (hafter : after.tables = OrderedMap.insert start.tables className changed)
    (hfewer : changed.Sublist (start.tableOf className)) : Preserves start after :=
  preserves_setTable h hafter ((h.tableOf className).sublist (hfewer.map Prod.fst)) (keepsCreation_sublist (h.tableOf className) hfewer)

end Preserves

/-! ### Records that are written -/

/-- Whether an operation stored a record under an id and changed nothing else. The record is stamped with the last stamp that was taken. It is a new record with that stamp for its creation, or it takes the place of another one and keeps the stamp of its creation. -/
structure Wrote (start after : Memory) (className id : String) (record : Fields) : Prop where
  tables : after.tables = OrderedMap.insert start.tables className (OrderedMap.insert (start.tableOf className) id record)
  updatedAt : OrderedMap.get? record FieldName.physicalUpdatedAt =
    some (.timestamp (WriteClock.micros.instant after.sources.last))
  createdAt : match start.record? className id with
    | none => OrderedMap.get? record FieldName.physicalCreatedAt =
        some (.timestamp (WriteClock.micros.instant after.sources.last))
    | some old => OrderedMap.get? record FieldName.physicalCreatedAt = OrderedMap.get? old FieldName.physicalCreatedAt
  later : after.sources.last < WriteClock.greatest → start.sources.last < after.sources.last
  reading : start.sources.wall (after.sources.reads - 1) ≤ after.sources.last

namespace Wrote

variable {start memory after : Memory} {className id : String} {record : Fields}

theorem preserves (h : Wrote start after className id record) (hdistinct : start.Distinct) : Preserves start after := by
  refine preserves_setTable hdistinct h.tables (OrderedMap.distinct_insert (hdistinct.tableOf className) id record) ?_
  intro other old new hold hnew
  rw [OrderedMap.get?_insert] at hnew
  split at hnew
  · next same =>
    subst same
    obtain rfl := Option.some.inj hnew
    have hcreated := h.createdAt
    rw [record?, hold] at hcreated
    exact hcreated
  · rw [Option.some.inj (hnew.symm.trans hold)]

theorem of_later (h : Wrote memory after className id record) (hsame : memory.tables = start.tables)
    (hlater : start.sources.last ≤ memory.sources.last) (hwall : memory.sources.wall = start.sources.wall) :
    Wrote start after className id record := by
  refine ⟨?_, h.updatedAt, ?_, fun hbelow => Int.lt_of_le_of_lt hlater (h.later hbelow), ?_⟩
  · rw [h.tables, hsame, tableOf_congr hsame]
  · have hcreated := h.createdAt
    rwa [record?_congr hsame] at hcreated
  · have hreading := h.reading
    rwa [hwall] at hreading

end Wrote

/-! ### Writing operations -/

section Writing

variable {memory : Memory}

/-- The state that a stamp and perhaps an identifier were taken from, with tables that are as before or have a new empty one. -/
structure Prepared (memory opened : Memory) (className : String) : Prop where
  last : opened.sources.last = (stamped memory).sources.last
  reads : opened.sources.reads = memory.sources.reads + 1
  wall : opened.sources.wall = memory.sources.wall
  tables : ∀ table, OrderedMap.insert opened.tables className table = OrderedMap.insert memory.tables className table

theorem Prepared.wrote {opened : Memory} {className id : String} {record : Fields} (h : Prepared memory opened className)
    (hupdated : OrderedMap.get? record FieldName.physicalUpdatedAt =
      some (.timestamp (WriteClock.micros.instant (stamped memory).sources.last)))
    (hcreated : match memory.record? className id with
      | none => OrderedMap.get? record FieldName.physicalCreatedAt =
          some (.timestamp (WriteClock.micros.instant (stamped memory).sources.last))
      | some old => OrderedMap.get? record FieldName.physicalCreatedAt = OrderedMap.get? old FieldName.physicalCreatedAt) :
    Wrote memory
      { opened with tables := OrderedMap.insert opened.tables className (OrderedMap.insert (memory.tableOf className) id record) }
      className id record := by
  refine ⟨h.tables _, ?_, ?_, fun hbelow => ?_, ?_⟩
  · rw [h.last]
    exact hupdated
  · rw [h.last]
    exact hcreated
  · rw [h.last] at hbelow ⊢
    exact Sources.last_lt_now hbelow
  · rw [h.last, h.reads, Nat.add_sub_cancel]
    exact Sources.wall_le_now memory.sources

theorem Prepared.wrote_new {opened : Memory} {className id : String} (h : Prepared memory opened className)
    (hfree : OrderedMap.contains (memory.tableOf className) id = false) {fields : Fields}
    (hfields : ∀ name ∈ OrderedMap.keys fields, FieldName.isReserved name = false) {record : Fields}
    (hrecord : record =
      Fields.stamped (.string id) (.timestamp (WriteClock.micros.instant (stamped memory).sources.last)) fields) :
    memory.record? className id = none ∧ Wrote memory
      { opened with tables := OrderedMap.insert opened.tables className (OrderedMap.insert (memory.tableOf className) id record) }
      className id record := by
  have hnone : memory.record? className id = none := by
    rw [OrderedMap.contains, Option.isSome_eq_false_iff, Option.isNone_iff_eq_none] at hfree
    exact hfree
  refine ⟨hnone, h.wrote ?_ ?_⟩
  · rw [hrecord]
    exact Fields.get?_stamped hfields _ _ (by decide)
  · rw [hnone, hrecord]
    exact Fields.get?_stamped hfields _ _ (by decide)

theorem Prepared.wrote_updated {opened : Memory} {className id : String} (h : Prepared memory opened className)
    (hdistinct : memory.Distinct) {before updated after : Fields} (hentry : (id, before) ∈ memory.tableOf className)
    {updates : Updates} (hupdates : ∀ name, FieldName.isReserved name = true → name ∉ OrderedMap.keys updates)
    (hupdated : applyUpdates updates before = .ok updated)
    (hafter : after = OrderedMap.insert updated FieldName.physicalUpdatedAt
      (.timestamp (WriteClock.micros.instant (stamped memory).sources.last))) :
    memory.record? className id = some before ∧ Wrote memory
      { opened with tables := OrderedMap.insert opened.tables className (OrderedMap.insert (memory.tableOf className) id after) }
      className id after := by
  have hsome : memory.record? className id = some before := OrderedMap.get?_of_mem (hdistinct.tableOf className) hentry
  refine ⟨hsome, h.wrote ?_ ?_⟩
  · rw [hafter, OrderedMap.get?_insert_self]
  · rw [hsome]
    dsimp only
    rw [hafter, OrderedMap.get?_insert_of_ne (by decide)]
    exact KeptRecord.get?_applyUpdates hupdated (hupdates _ (by decide))

theorem prepared_stamped (memory : Memory) (className : String) : Prepared memory (stamped memory) className :=
  ⟨rfl, rfl, rfl, fun _ => rfl⟩

theorem Prepared.drawn {current : Memory} {className : String} (h : Prepared memory current className) :
    Prepared memory { current with sources := current.sources.draw.2 } className :=
  ⟨h.last, h.reads, h.wall, h.tables⟩

/-- The table of a class as it was, from a state in which nothing but sources changed. -/
theorem ends_openPrepared {current : Memory} {className : String} (h : Prepared memory current className)
    (hsame : current.tables = memory.tables) {post : Outcome Table → Memory → Prop}
    (hpost : ∀ opened, Prepared memory opened className → post (.ok (memory.tableOf className)) opened) :
    Ends (openTable className) current post := by
  refine ends_openSame fun opened hopened => ?_
  rw [tableOf_congr hsame]
  refine hpost opened ⟨?_, ?_, ?_, fun table => by rw [hopened.insert, hsame]⟩
  · rw [hopened.sources, h.last]
  · rw [hopened.sources, h.reads]
  · rw [hopened.sources, h.wall]

theorem ends_seedPrepared {current : Memory} {className : String} (h : Prepared memory current className) {seed : Option Value}
    {post : Outcome String → Memory → Prop}
    (hpost : ∀ id drawn, Prepared memory drawn className → post (.ok id) drawn) :
    Ends (seedId seed) current post := by
  refine ends_seedDrawn fun id drawn _ hdrawn => ?_
  rcases hdrawn with rfl | rfl
  · exact hpost id _ h
  · exact hpost id _ h.drawn

/-- An attempt reads the one wall clock, and writes if it succeeds. -/
structure Attempted {α : Type} (wrote : Memory → Prop) (start : Memory) (outcome : Outcome α) (after : Memory) : Prop where
  wall : after.sources.wall = start.sources.wall
  wrote : ∀ a, outcome = .ok a → wrote after

theorem attempted_error {α : Type} {wrote : Memory → Prop} {start after : Memory} (hwall : after.sources.wall = start.sources.wall)
    (failure : Failure) : Attempted wrote start (.error failure : Outcome α) after :=
  ⟨hwall, nofun⟩

theorem wrote_insertOnce (memory : Memory) (className : String) {fields : Fields}
    (hfields : ∀ name ∈ OrderedMap.keys fields, FieldName.isReserved name = false) :
    Ends (insertOnce className fields) memory (Attempted
      (fun after => ∃ id record, memory.record? className id = none ∧ Wrote memory after className id record) memory) := by
  refine ends_bind (ends_now.mpr ?_)
  refine ends_bind (ends_drawId.mpr ?_)
  refine ends_bind (ends_openPrepared (prepared_stamped memory className).drawn rfl fun opened hopened => ?_)
  refine ends_bind (ends_insertRecord (fun _ => attempted_error hopened.wall _) fun hfree => ends_lift.mpr ?_)
  exact ⟨hopened.wall, fun _ _ => ⟨_, _, hopened.wrote_new hfree hfields rfl⟩⟩

theorem wrote_upsertOnce (hdistinct : memory.Distinct) {query : FindOneQuery}
    (hupdates : ∀ name, FieldName.isReserved name = true → name ∉ OrderedMap.keys query.update) :
    Ends (upsertOnce query) memory
      (Attempted (fun after => ∃ id record, Wrote memory after query.className id record) memory) := by
  refine ends_bind (ends_now.mpr ?_)
  refine ends_bind (ends_openPrepared (prepared_stamped memory query.className) rfl fun opened hopened => ?_)
  refine ends_bind (ends_replaceFirst ?none (fun failure _ => attempted_error hopened.wall failure) ?some)
  case none =>
    refine ends_bind (ends_lift.mpr ?_)
    cases query.upsertSeed with
    | error failure => exact attempted_error hopened.wall failure
    | ok seed =>
      refine ends_bind (ends_seedPrepared hopened fun id drawn hdrawn => ?_)
      refine ends_bind (ends_insertRecord (fun _ => attempted_error hdrawn.wall _) fun hfree => ?_)
      have hwrote := hdrawn.wrote_new hfree (not_isReserved_of_mem_filter seed) rfl
      exact ends_insertedImage fun _ => ⟨hdrawn.wall, fun _ _ => ⟨_, _, hwrote.2⟩⟩
  case some =>
    intro id before updated after image hentry hupdated hafter _
    have hwrote := hopened.wrote_updated hdistinct hentry hupdates hupdated hafter
    exact ends_returned fun _ => ⟨hopened.wall, fun _ _ => ⟨id, after, hwrote.2⟩⟩

/-- All attempts write what one attempt writes, because lost races change no table. -/
theorem wrote_retryRaces {α : Type} {races : List Race} {attempt : Action α} {wrote : Memory → Memory → Prop}
    (hsafe : ∀ memory : Memory, memory.Kept → Ends attempt memory (Safe memory))
    (hwrote : ∀ memory : Memory, memory.Distinct → Ends attempt memory (Attempted (wrote memory) memory))
    (hlater : ∀ start memory after : Memory, memory.tables = start.tables → start.sources.last ≤ memory.sources.last →
      memory.sources.wall = start.sources.wall → wrote memory after → wrote start after)
    (limit : Option Nat) (patience : Nat) (h : memory.Kept) (hdistinct : memory.Distinct) :
    Ends (ExceptT.mk (retryRaces races limit patience fun _ => attempt.run)) memory (Attempted (wrote memory) memory) := by
  refine ends_retryKept (fun current => current.sources.wall = memory.sources.wall) hsafe (fun current hsame hpast hwall => ?_)
    (fun _ _ hlost => hlost.wall) limit patience h rfl
  refine (hwrote current (hdistinct.congr hsame)).mono fun outcome after hattempted => ?_
  exact ⟨hattempted.wall.trans hwall, fun a ha => hlater memory current _ hsame hpast hwall (hattempted.wrote a ha)⟩

theorem wrote_insert (patience : Nat) (h : memory.Kept) (hdistinct : memory.Distinct) (className : String) (fields : Fields) :
    Ends (perform patience (.insert className fields)) memory (Attempted
      (fun after => ∃ id record, memory.record? className id = none ∧ Wrote memory after className id record) memory) := by
  rw [perform]
  split
  · exact attempted_error rfl _
  · refine ends_check (attempted_error rfl) fun hnames => ?_
    have hfields := FieldName.rejectReserved_eq_ok_iff.mp hnames
    refine wrote_retryRaces (fun memory hmemory => safe_insertOnce hmemory className hfields)
      (fun memory _ => wrote_insertOnce memory className hfields) ?_ none patience h hdistinct
    rintro start memory after hsame hpast hwall ⟨id, record, hnone, hwrote⟩
    exact ⟨id, record, (record?_congr hsame className id).symm.trans hnone, hwrote.of_later hsame hpast hwall⟩

theorem wrote_upsert (patience : Nat) (h : memory.Kept) (hdistinct : memory.Distinct) (query : FindOneQuery) :
    Ends (perform patience (.upsert query)) memory (Attempted
      (fun after => ∃ id record, Wrote memory after query.className id record) memory) := by
  refine ends_check (attempted_error rfl) fun _ => ends_check (attempted_error rfl) fun hnames => ?_
  refine ends_bind (ends_lift.mpr ?_)
  cases hseed : query.toPhysical.upsertSeed with
  | error failure => exact attempted_error rfl failure
  | ok seed =>
    have hupdates := not_mem_keys_of_rejectReserved hnames (List.subset_append_left _ _)
    refine wrote_retryRaces (fun memory hmemory => safe_upsertOnce hmemory hupdates hseed)
      (fun memory hmemory => wrote_upsertOnce hmemory hupdates) ?_ _ patience h hdistinct
    rintro start memory after hsame hpast hwall ⟨id, record, hwrote⟩
    exact ⟨id, record, hwrote.of_later hsame hpast hwall⟩

/-- What an update does: it replaces a record, or finds none and changes nothing, or fails. -/
inductive Updated (memory : Memory) (className : String) : Outcome (Option Object) → Memory → Prop where
  | replaced {object : Object} {after : Memory} {id : String} {record : Fields} (hthere : memory.record? className id ≠ none)
      (hwrote : Wrote memory after className id record) : Updated memory className (.ok (some object)) after
  | unmatched {after : Memory} (hsame : after.tables = memory.tables) : Updated memory className (.ok none) after
  | failed (failure : Failure) (after : Memory) : Updated memory className (.error failure) after

theorem updated_perform (patience : Nat) (hdistinct : memory.Distinct) (query : FindOneQuery) :
    Ends (perform patience (.update query)) memory (Updated memory query.className) := by
  refine ends_check (fun failure => .failed failure _) fun _ => ends_check (fun failure => .failed failure _) fun hnames => ?_
  refine ends_bind (ends_now.mpr (ends_bind (ends_table?.mpr ?_)))
  cases htable : OrderedMap.get? memory.tables query.className with
  | none => exact .unmatched rfl
  | some table =>
    have hupdates := not_mem_keys_of_rejectReserved hnames (List.Subset.refl _)
    obtain rfl := tableOf_of_get? htable
    refine ends_bind (ends_replaceFirst (.unmatched rfl) (fun failure _ => .failed failure _) ?_)
    intro id before updated after image hentry hupdated hafter _
    have hwrote := (prepared_stamped memory query.className).wrote_updated hdistinct hentry hupdates hupdated hafter
    refine ends_bind (ends_lift.mpr ?_)
    cases Object.ofRecord query.className (project query.toPhysical.includes image) with
    | error failure => exact .failed failure _
    | ok object => exact .replaced (by rw [hwrote.1]; exact nofun) hwrote.2

end Writing

/-! ### Every operation -/

section Perform

variable {memory : Memory} (patience : Nat) (h : memory.Kept) (hdistinct : memory.Distinct)

include h in
/-- A failure changed no table, and a write replaces or adds one record. -/
theorem preserves_of_attempted (operation : Operation) {wrote : Memory → Prop}
    (hattempted : Ends (perform patience operation) memory (Attempted wrote memory))
    (hwrote : ∀ after, wrote after → Preserves memory after) (hsame : ∀ after, after.tables = memory.tables → Preserves memory after) :
    Ends (perform patience operation) memory fun _ after => Preserves memory after := by
  have hboth : Ends (perform patience operation) memory fun outcome after =>
      Safe memory outcome after ∧ Attempted wrote memory outcome after := ⟨safe_perform patience h operation, hattempted⟩
  refine hboth.mono fun outcome after hdone => ?_
  cases outcome with
  | ok a => exact hwrote after (hdone.2.wrote a rfl)
  | error failure => exact hsame after (hdone.1.unchanged failure rfl)

include hdistinct

theorem preserves_same {after : Memory} (hsame : after.tables = memory.tables) : Preserves memory after :=
  preserves_of_tables_eq hdistinct hsame

theorem preserves_createTable (className : String) : Ends (createTable className) memory fun _ after => Preserves memory after := by
  rw [createTable]
  split
  · exact preserves_same hdistinct rfl
  · refine ends_bind (ends_openTable (fun table htable => preserves_same hdistinct rfl) fun hmissing => ?_)
    exact preserves_sublist hdistinct rfl (List.nil_sublist _)

theorem preserves_dropTable (className : String) :
    Ends (perform patience (.dropTable className)) memory fun _ after => Preserves memory after := by
  have herased : OrderedMap.Distinct (OrderedMap.erase memory.tables className) :=
    hdistinct.classes.sublist ((OrderedMap.erase_sublist memory.tables className).map Prod.fst)
  refine ⟨⟨herased, fun entry hentry => ?_⟩, fun other => ?_⟩
  · exact hdistinct.ids entry ((OrderedMap.erase_sublist memory.tables className).subset hentry)
  · by_cases same : className = other
    · subst same
      have hnone : ({ memory with tables := OrderedMap.erase memory.tables className } : Memory).tableOf className = [] :=
        tableOf_of_missing (OrderedMap.get?_erase_self hdistinct.classes className)
      intro id old new _ hnew
      have hnew : OrderedMap.get? (({ memory with tables := OrderedMap.erase memory.tables className } : Memory).tableOf className) id =
        some new := hnew
      rw [hnone] at hnew
      cases hnew
    · have hother : ({ memory with tables := OrderedMap.erase memory.tables className } : Memory).tableOf other = memory.tableOf other := by
        rw [tableOf, tableOf, OrderedMap.get?_erase_of_ne same]
      show KeepsCreation _ (({ memory with tables := OrderedMap.erase memory.tables className } : Memory).tableOf other)
      rw [hother]
      exact keepsCreation_refl _

theorem preserves_dropColumns (className : String) (columns : List String) :
    Ends (perform patience (.dropColumns className columns)) memory fun _ after => Preserves memory after := by
  refine ends_check (fun _ => preserves_same hdistinct rfl) fun hcolumns => ends_bind (ends_table?.mpr ?_)
  cases htable : OrderedMap.get? memory.tables className with
  | none => exact preserves_same hdistinct rfl
  | some table =>
    obtain rfl := tableOf_of_get? htable
    refine preserves_setTable hdistinct rfl ?_ (keepsCreation_eraseColumns hcolumns _)
    rw [OrderedMap.Distinct, OrderedMap.keys, List.map_map]
    exact hdistinct.tableOf className

theorem preserves_count (query : FindQuery) :
    Ends (perform patience (.count query)) memory fun _ after => Preserves memory after := by
  refine ends_check (fun _ => preserves_same hdistinct rfl) fun _ => ends_bind (ends_table?.mpr ?_)
  cases OrderedMap.get? memory.tables query.className with
  | none => exact preserves_same hdistinct rfl
  | some table => exact preserves_same hdistinct rfl

theorem preserves_each (query : FindQuery) (visitor : Visitor) :
    Ends (perform patience (.each query visitor)) memory fun _ after => Preserves memory after := by
  refine ends_bind (ends_caught.mpr ((ends_find query).mono ?_))
  rintro outcome after rfl
  cases outcome with
  | error failure => exact preserves_same hdistinct rfl
  | ok objects => exact preserves_same hdistinct rfl

theorem preserves_delete (query : FindOneQuery) :
    Ends (perform patience (.delete query)) memory fun _ after => Preserves memory after := by
  refine ends_check (fun _ => preserves_same hdistinct rfl) fun _ => ends_bind (ends_table?.mpr ?_)
  cases htable : OrderedMap.get? memory.tables query.className with
  | none => exact preserves_same hdistinct rfl
  | some table =>
    obtain rfl := tableOf_of_get? htable
    simp only [andNext]
    cases (selectEntries (memory.tableOf query.className) query.toPhysical.asFind).head? with
    | none => exact preserves_same hdistinct rfl
    | some entry =>
      refine ends_bind (ends_setTable.mpr ?_)
      simp only [andNext]
      exact ends_returned fun _ => preserves_sublist hdistinct rfl (OrderedMap.erase_sublist _ entry.1)

theorem preserves_deleteAll (query : FindQuery) :
    Ends (perform patience (.deleteAll query)) memory fun _ after => Preserves memory after := by
  refine ends_check (fun _ => preserves_same hdistinct rfl) fun _ => ends_bind (ends_table?.mpr ?_)
  cases htable : OrderedMap.get? memory.tables query.className with
  | none => exact preserves_same hdistinct rfl
  | some table =>
    obtain rfl := tableOf_of_get? htable
    exact preserves_sublist hdistinct rfl (OrderedMap.foldl_erase_sublist _ _)

include h

/-- Every operation keeps classes and ids distinct, and the stamp of the creation of every record that stays. -/
theorem preserves_perform (operation : Operation) :
    Ends (perform patience operation) memory fun _ after => Preserves memory after := by
  have hsame : ∀ after : Memory, after.tables = memory.tables → Preserves memory after := fun _ => preserves_same hdistinct
  cases operation with
  | tables => exact hsame _ rfl
  | createTable className columns => exact preserves_createTable hdistinct className
  | addColumns className columns => exact preserves_createTable hdistinct className
  | dropTable className => exact preserves_dropTable patience hdistinct className
  | dropColumns className columns => exact preserves_dropColumns patience hdistinct className columns
  | addIndex className name keys unique => exact hsame _ rfl
  | dropIndex className name => exact hsame _ rfl
  | count query => exact preserves_count patience hdistinct query
  | find query => exact (ends_find query).mono fun _ after hafter => hsame after (by rw [hafter])
  | each query visitor => exact preserves_each patience hdistinct query visitor
  | first query => exact (ends_first { query with limit := some 1 }).mono fun _ after hafter => hsame after (by rw [hafter])
  | update query =>
    have hboth : Ends (perform patience (.update query)) memory fun outcome after =>
        Safe memory outcome after ∧ Updated memory query.className outcome after :=
      ⟨safe_update patience h query, updated_perform patience hdistinct query⟩
    refine hboth.mono fun outcome after ⟨hsafe, hupdated⟩ => ?_
    cases hupdated with
    | replaced _ hwrote => exact hwrote.preserves hdistinct
    | unmatched hunchanged => exact hsame after hunchanged
    | failed failure => exact hsame after (hsafe.unchanged failure rfl)
  | upsert query =>
    refine preserves_of_attempted patience h _ (wrote_upsert patience h hdistinct query) ?_ hsame
    exact fun after ⟨_, _, hwrote⟩ => hwrote.preserves hdistinct
  | delete query => exact preserves_delete patience hdistinct query
  | deleteAll query => exact preserves_deleteAll patience hdistinct query
  | insert className fields =>
    refine preserves_of_attempted patience h _ (wrote_insert patience h hdistinct className fields) ?_ hsame
    exact fun after ⟨_, _, _, hwrote⟩ => hwrote.preserves hdistinct

end Perform

end Memory

end ObjectStore
