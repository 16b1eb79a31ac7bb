import ObjectStore.Proofs.Relational.Widening

/-!
# Fields that statements list

An insertion leaves out what has no column, and an update leaves out what would change nothing in a missing column. But the table was brought up to date for the columns that the written values need, so nothing that is to be written is lost: an insertion lists the reserved fields and every other field that is not null, and an update assigns every field but those that stay absent. A table that was not made by this library needs the reserved columns for that.
-/

namespace ObjectStore

namespace Relational

/-! ### Tables with the reserved columns -/

/-- Whether all tables that were looked up have the reserved columns. -/
def Trace.Complete (past : Trace) : Prop :=
  ∀ name rows table, ⟨.lookup name, .ok rows⟩ ∈ past → Table.ofCatalog? name rows = some table →
    ∀ column ∈ FieldName.reserved, table.hasColumn column = true

/-- Tables that are made have the reserved columns, and tables that are widened keep them. -/
theorem Trace.Shows.hasColumn {past : Trace} {table : Table} (h : Shows past table) (hcomplete : Complete past) :
    ∀ column ∈ FieldName.reserved, table.hasColumn column = true := by
  induction h with
  | found hlookup htable => exact hcomplete _ _ _ hlookup htable
  | made =>
    intro column hcolumn
    have hreserved : OrderedMap.contains Table.reserved column = true := OrderedMap.contains_eq_true_iff.mpr hcolumn
    exact OrderedMap.contains_extend hreserved _
  | widened _ _ ih => exact fun column hcolumn => OrderedMap.contains_extend (ih column hcolumn) _

theorem Table.Keeps.hasColumn {table : Table} {column : Column} (h : table.Keeps column) : table.hasColumn column.name = true := by
  obtain ⟨existing, hexisting, -⟩ := h
  rw [Table.column?] at hexisting
  rw [Table.hasColumn, OrderedMap.contains, hexisting]
  rfl

/-! ### Insertions -/

/-- The insertion of some entries, all of which are listed. -/
def Statement.inserting (table : Table) (entries : Fields) (includes : Option NameSet) : Statement :=
  ofPieces ([.sql "INSERT INTO ", .name table.name, .sql " ("] ++ Pieces.join ", " (entries.map fun (name, _) => [.name name])
    ++ .sql ") VALUES (" :: Pieces.join ", " (entries.map fun (_, value) => [.value value])
    ++ .sql ") RETURNING " :: Pieces.projection table includes none)

/-- The entries of a new record: the reserved fields, and then every other field that is not null. -/
def Fields.listed (id now : Value) (fields : Fields) : Fields :=
  [(FieldName.physicalId, id), (FieldName.physicalCreatedAt, now), (FieldName.physicalUpdatedAt, now)] ++
    OrderedMap.filter (fun name value => !FieldName.isReserved name && !value.isNull) fields

section Entries

variable {fields : Fields} {id now : Value}

theorem distinct_stamps_append (h : fields.Distinct) (hplain : ∀ name ∈ OrderedMap.keys fields, FieldName.isReserved name = false) :
    OrderedMap.Distinct ([(FieldName.physicalId, id), (FieldName.physicalCreatedAt, now), (FieldName.physicalUpdatedAt, now)] ++ fields) := by
  have hreserved : (FieldName.reserved ++ OrderedMap.keys fields).Nodup := by
    refine List.nodup_append.mpr ⟨by decide, h, ?_⟩
    rintro name hname _ hother rfl
    have hfalse := hplain name hother
    rw [FieldName.isReserved_of_mem (List.mem_append_right _ hname)] at hfalse
    cases hfalse
  rw [OrderedMap.Distinct, OrderedMap.keys, List.map_append]
  exact hreserved

theorem Fields.distinct_listed (h : fields.Distinct) : (Fields.listed id now fields).Distinct := by
  apply distinct_stamps_append (OrderedMap.distinct_filter h _)
  intro name hname
  obtain ⟨value, hentry⟩ := OrderedMap.mem_keys_iff.mp hname
  have htest := (List.mem_filter.mp hentry).2
  simp only [Bool.and_eq_true, Bool.not_eq_true'] at htest
  exact htest.1

theorem Fields.listed_filter (fields : Fields) (id now : Value) :
    Fields.listed id now (OrderedMap.filter (fun name _ => !FieldName.isReserved name) fields) = Fields.listed id now fields := by
  rw [listed, listed, OrderedMap.filter, OrderedMap.filter, OrderedMap.filter, List.filter_filter]
  congr 2
  funext entry
  cases FieldName.isReserved entry.1 <;> simp

/-- Nothing of a new record is left out of its insertion but nulls, if its table has the columns. -/
theorem insertedFields_stamped {table : Table} (h : fields.Distinct)
    (hplain : ∀ name ∈ OrderedMap.keys fields, FieldName.isReserved name = false)
    (hreserved : ∀ column ∈ FieldName.reserved, table.hasColumn column = true)
    (hcolumns : ∀ column ∈ Column.ofFields fields, table.hasColumn column.name = true)
    (hid : id.isNull = false) (hnow : now.isNull = false) :
    Statement.insertedFields table (Fields.stamped id now fields) = Fields.listed id now fields := by
  rw [Fields.stamped, OrderedMap.extend_eq_append (distinct_stamps_append h hplain), Statement.insertedFields, Fields.listed,
    OrderedMap.filter, List.filter_append]
  congr 1
  · rw [List.filter_eq_self]
    simp only [FieldName.reserved, List.forall_mem_cons] at hreserved
    simp [hreserved, hid, hnow]
  · apply List.filter_congr
    rintro ⟨name, value⟩ hentry
    have hname := hplain name (OrderedMap.mem_keys_iff.mpr ⟨value, hentry⟩)
    simp only [hname, Bool.not_false, Bool.true_and]
    cases htype : FieldType.ofValue? value with
    | none => cases value <;> first | rfl | cases htype
    | some type =>
      have hcolumn := hcolumns ⟨name, type⟩ (Column.mem_ofFields.mpr ⟨value, hentry, htype⟩)
      rw [hcolumn, Bool.and_true]

end Entries

/-- Whether a statement inserts a record of some fields and lists all of it, into a table that the server shows. -/
def InsertListed (fields : Fields) (past : Trace) (statement : Statement) : Prop :=
  past.Complete → ∃ (table : Table) (id : String) (now : Instant), Trace.Shows past table ∧
    (Fields.listed (.string id) (.timestamp now) fields).Distinct ∧
    statement = Statement.inserting table (Fields.listed (.string id) (.timestamp now) fields) none

/-- Whether a statement inserts the seed of a query and lists all of it, into a table that the server shows. -/
def SeedListed (query : FindOneQuery) (past : Trace) (statement : Statement) : Prop :=
  past.Complete → ∃ (table : Table) (seed : Fields) (id : Value) (now : Instant), Trace.Shows past table ∧
    query.upsertSeed = .ok seed ∧ id.isNull = false ∧ (Fields.listed id (.timestamp now) seed).Distinct ∧
    statement = Statement.inserting table (Fields.listed id (.timestamp now) seed) query.includes

section Listed

variable {past : Trace} {statement : Statement}

theorem InsertSent.listed {className : String} {fields : Fields} (hfields : fields.Distinct)
    (h : InsertSent className fields past statement) : InsertListed fields past statement := by
  obtain ⟨hplain, table, id, now, hshown, hsynced, rfl⟩ := h
  intro hcomplete
  refine ⟨table, id, now, hshown, Fields.distinct_listed hfields, ?_⟩
  have hcolumns : ∀ column ∈ Column.ofFields fields, table.hasColumn column.name = true :=
    fun column hcolumn => (hsynced.keeps_ofFields hfields hplain column hcolumn).hasColumn
  rw [← insertedFields_stamped hfields hplain (hshown.hasColumn hcomplete) hcolumns rfl rfl]
  rfl

theorem mem_equalities_of_get?_upsertSeed {query : FindOneQuery} {seed : Fields} (hseed : query.upsertSeed = .ok seed)
    (hnames : ∀ name ∈ FieldName.reserved, name ∉ OrderedMap.keys query.update ∧ name ∉ OrderedMap.keys query.setOnInsert)
    {id : Value} (hid : OrderedMap.get? seed FieldName.physicalId = some id) :
    (FieldName.physicalId, id) ∈ Predicate.equalitiesOfList query.filters := by
  obtain ⟨hupdate, hinsert⟩ := hnames FieldName.physicalId List.mem_cons_self
  rw [Updates.get?_applyTo_of_not_mem hseed hupdate, FindOneQuery.seedFields, OrderedMap.get?_extend_of_not_mem hinsert] at hid
  rcases OrderedMap.mem_extend (OrderedMap.mem_of_get? hid) with hnone | hmem
  · cases hnone
  · exact hmem

theorem SeedSent.listed {query : FindOneQuery} {seed : Fields} (hdistinct : query.update.Distinct)
    (hseed : query.upsertSeed = .ok seed) (hid : (FieldName.physicalId, Value.null) ∉ Predicate.equalitiesOfList query.filters)
    (h : SeedSent query seed past statement) : SeedListed query past statement := by
  obtain ⟨hnames, table, id, now, hshown, hsynced, hsource, rfl⟩ := h
  intro hcomplete
  have hfields : seed.Distinct := Updates.distinct_applyTo hseed query.distinct_seedFields
  have hvalue : id.isNull = false := by
    rcases hsource with hfixed | ⟨text, rfl⟩
    · have hmem := mem_equalities_of_get?_upsertSeed hseed hnames hfixed
      cases id with
      | null => exact absurd hmem hid
      | _ => rfl
    · rfl
  refine ⟨table, seed, id, now, hshown, hseed, hvalue, Fields.distinct_listed hfields, ?_⟩
  have hkeeps := hsynced.keepsUpsert hdistinct (fun name hname => (hnames name hname).1) hseed
  rw [← Fields.listed_filter, ← insertedFields_stamped (OrderedMap.distinct_filter hfields _) ?plain (hshown.hasColumn hcomplete)
    ?columns hvalue rfl]
  · rfl
  case plain =>
    intro name hname
    rw [OrderedMap.keys_filter fun name => !FieldName.isReserved name] at hname
    simpa using (List.mem_filter.mp hname).2
  case columns =>
    intro column hcolumn
    obtain ⟨value, hentry, htype⟩ := Column.mem_ofFields.mp hcolumn
    obtain ⟨hentry, hplain⟩ := List.mem_filter.mp hentry
    refine (hkeeps.fields column (Column.mem_ofFields.mpr ⟨value, hentry, htype⟩) fun hreserved => ?_).hasColumn
    simp [FieldName.isReserved_of_mem (List.mem_append_right _ hreserved)] at hplain

end Listed

/-! ### Updates -/

/-- An update that changes nothing where there is no field. -/
inductive LeavesAbsent : Update → Prop where
  | unset : LeavesAbsent .unset
  | popFirst : LeavesAbsent .popFirst
  | popLast : LeavesAbsent .popLast
  | removeAll (values : List Value) : LeavesAbsent (.removeAll values)
  | setNull : LeavesAbsent (.set .null)

theorem leavesAbsent_of_isIdle {update : Update} (h : Assignment.isIdle update = true) : LeavesAbsent update := by
  unfold Assignment.isIdle at h
  split at h
  · exact .unset
  · exact .popFirst
  · exact .popLast
  · exact .removeAll _
  · exact .setNull
  · cases h

/-- The update of the first match of a query by some assignments. -/
def Statement.assigning (table : Table) (query : FindOneQuery) (assignments : List (String × Assignment)) : Statement :=
  let change := [.sql "UPDATE ", .name table.name, .sql " AS affected SET "]
    ++ Pieces.join ", " (assignments.map fun (column, assignment) => .name column :: .sql " = " :: assignment.pieces column)
    ++ .sql " FROM " :: Pieces.onTarget
  ofPieces (Pieces.target table query ++ match query.returning with
    | .after => .sql " " :: change ++ .sql " RETURNING " :: Pieces.projection table query.includes (some "affected")
    | .before =>
      [.sql ", previous AS (SELECT ", .name table.name, .sql ".* FROM ", .name table.name, .sql " JOIN target USING (",
          .name FieldName.physicalId, .sql ")), updated AS ("]
        ++ change ++ .sql ") SELECT " :: Pieces.projection table query.includes none ++ [.sql " FROM previous"])

theorem Statement.update_eq_ok_iff {table : Table} {query : FindOneQuery} {now : Value} {statement : Statement} :
    Statement.update table query now = .ok statement ↔ ∃ assignments, Assignment.ofUpdates table query.update = .ok assignments ∧
      assigning table query (assignments ++ [(FieldName.physicalUpdatedAt, .set now)]) = statement := by
  rw [update, Assignment.listPieces]
  cases Assignment.ofUpdates table query.update with
  | error failure => exact ⟨nofun, fun ⟨_, h, _⟩ => nomatch h⟩
  | ok assignments => exact ⟨fun h => ⟨assignments, rfl, Except.ok.inj h⟩, fun ⟨_, h, same⟩ => by cases h; exact congrArg _ same⟩

theorem Assignment.ofUpdate?_eq_ok_iff {table : Table} {key : String} {update : Update} {assignment? : Option Assignment} :
    ofUpdate? table key update = .ok assignment? ↔
      (table.hasColumn key = true ∧ ∃ assignment, ofUpdate update = .ok assignment ∧ assignment? = some assignment) ∨
        (table.hasColumn key = false ∧ isIdle update = true ∧ assignment? = none) := by
  rw [ofUpdate?]
  cases table.hasColumn key with
  | true => simp [Outcome.map_eq_ok_iff, @eq_comm _ assignment?]
  | false => cases isIdle update <;> simp [@eq_comm _ assignment?]

theorem Assignment.ofUpdates_cons_eq_ok_iff {table : Table} {key : String} {update : Update} {rest : Updates}
    {assignments : List (String × Assignment)} :
    ofUpdates table ((key, update) :: rest) = .ok assignments ↔ ∃ assignment? others, ofUpdate? table key update = .ok assignment? ∧
      ofUpdates table rest = .ok others ∧ (assignment?.map fun assignment => (key, assignment)).toList ++ others = assignments := by
  constructor
  · intro h
    obtain ⟨assignment?, hfirst, hrest⟩ := Outcome.bind_eq_ok_iff.mp h
    obtain ⟨others, hothers, hsame⟩ := Outcome.bind_eq_ok_iff.mp hrest
    exact ⟨assignment?, others, hfirst, hothers, Except.ok.inj hsame⟩
  · rintro ⟨assignment?, others, hfirst, hothers, rfl⟩
    exact Outcome.bind_eq_ok_iff.mpr ⟨assignment?, hfirst, Outcome.bind_eq_ok_iff.mpr ⟨others, hothers, rfl⟩⟩

section Assignments

variable {table : Table} {updates : Updates} {assignments : List (String × Assignment)}
  (h : Assignment.ofUpdates table updates = .ok assignments)

include h

theorem keys_ofUpdates_sublist : (OrderedMap.keys assignments).Sublist (OrderedMap.keys updates) := by
  induction updates generalizing assignments with
  | nil =>
    obtain rfl := Except.ok.inj h
    exact List.Sublist.slnil
  | cons entry rest ih =>
    obtain ⟨key, update⟩ := entry
    obtain ⟨assignment?, others, -, hothers, rfl⟩ := Assignment.ofUpdates_cons_eq_ok_iff.mp h
    cases assignment? with
    | none => exact (ih hothers).cons _
    | some assignment => exact (ih hothers).cons_cons _

/-- Every update is assigned, unless there is no column and the field stays absent. -/
theorem assigned_or_absent : ∀ entry ∈ updates,
    (∃ assignment, Assignment.ofUpdate entry.2 = .ok assignment ∧ (entry.1, assignment) ∈ assignments) ∨
      (table.hasColumn entry.1 = false ∧ LeavesAbsent entry.2) := by
  induction updates generalizing assignments with
  | nil => exact fun _ hnone => absurd hnone List.not_mem_nil
  | cons entry rest ih =>
    obtain ⟨key, update⟩ := entry
    obtain ⟨assignment?, others, hfirst, hothers, rfl⟩ := Assignment.ofUpdates_cons_eq_ok_iff.mp h
    refine List.forall_mem_cons.mpr ⟨?_, fun other hother => ?_⟩
    · rcases Assignment.ofUpdate?_eq_ok_iff.mp hfirst with ⟨-, assignment, hassignment, rfl⟩ | ⟨hcolumn, hidle, -⟩
      · exact Or.inl ⟨assignment, hassignment, List.mem_cons_self⟩
      · exact Or.inr ⟨hcolumn, leavesAbsent_of_isIdle hidle⟩
    · refine (ih hothers other hother).imp_left fun ⟨assignment, hassignment, hmem⟩ => ?_
      exact ⟨assignment, hassignment, List.mem_append_right _ hmem⟩

end Assignments

/-- Whether a statement updates a table that the server shows and that is up to date for some columns, and assigns every field of the updates and the stamp, each once. Only fields without a column that stay absent are left out. -/
def UpdateListed (columns : List Column) (query : FindOneQuery) (past : Trace) (statement : Statement) : Prop :=
  ∃ (table : Table) (now : Instant) (assignments : List (String × Assignment)), Trace.Shows past table ∧
    (∃ className, Table.Synced className columns table) ∧
    OrderedMap.Distinct (assignments ++ [(FieldName.physicalUpdatedAt, .set (.timestamp now))]) ∧
    OrderedMap.keys assignments ⊆ OrderedMap.keys query.update ∧
    (∀ entry ∈ query.update,
      (∃ assignment, Assignment.ofUpdate entry.2 = .ok assignment ∧ (entry.1, assignment) ∈ assignments) ∨
        (table.hasColumn entry.1 = false ∧ LeavesAbsent entry.2)) ∧
    statement = Statement.assigning table query (assignments ++ [(FieldName.physicalUpdatedAt, .set (.timestamp now))])

theorem UpdateSent.listed {className : String} {columns : List Column} {query : FindOneQuery} (hdistinct : query.update.Distinct)
    {past : Trace} {statement : Statement} (h : UpdateSent className columns query past statement) :
    UpdateListed columns query past statement := by
  obtain ⟨hplain, table, now, hshown, hsynced, hstatement⟩ := h
  obtain ⟨assignments, hassignments, rfl⟩ := Statement.update_eq_ok_iff.mp hstatement
  have hkeys := keys_ofUpdates_sublist hassignments
  refine ⟨table, now, assignments, hshown, ⟨className, hsynced⟩, ?_, hkeys.subset, assigned_or_absent hassignments, rfl⟩
  rw [OrderedMap.Distinct, OrderedMap.keys, List.map_append]
  refine List.nodup_append.mpr ⟨hdistinct.sublist hkeys, List.pairwise_singleton _ _, ?_⟩
  rintro name hname stamp hstamp rfl
  obtain rfl := List.mem_singleton.mp hstamp
  exact hplain FieldName.physicalUpdatedAt (by decide) (hkeys.subset hname)

/-- Whether a statement is one of the two of an update-or-insert, and lists everything. -/
def UpsertListed (query : FindOneQuery) (past : Trace) (statement : Statement) : Prop :=
  (∃ seed, query.upsertSeed = .ok seed ∧ UpdateListed (upsertColumns seed query.update) query past statement) ∨
    SeedListed query past statement

/-- Whether an update-or-insert had its update answered, and the insertion of its seed too if no record was updated, and both list everything. -/
def UpsertComplete (query : FindOneQuery) (past later : Trace) : Prop :=
  ∃ seed statement rows, query.upsertSeed = .ok seed ∧ UpdateListed (upsertColumns seed query.update) query later statement ∧
    Trace.Answers past later statement rows ∧
    (rows.cells = [] → ∃ insertion others, SeedListed query later insertion ∧ Trace.Answers past later insertion others)

namespace Dialogue

/-- No field of a write is lost. Every insertion that is sent lists the reserved fields and every other field that is not null, and every update assigns all fields but those that stay absent. And a write that succeeds had such statements answered. -/
theorem writes_list (inTransaction : Bool) (patience : Nat) (past : Trace) :
    (∀ className, ∀ fields : Fields, fields.Distinct →
      Yields (Request.Writes (InsertListed fields))
        (fun later _ => ∃ statement rows, InsertListed fields later statement ∧ Trace.Answers past later statement rows) past
        ((session inTransaction patience).insert className fields)) ∧
    (∀ query : FindOneQuery,
      Yields (Request.Writes (UpdateListed (Column.ofUpdates query.toPhysical.update) query.toPhysical))
        (fun later object? => object? ≠ none → ∃ statement rows,
          UpdateListed (Column.ofUpdates query.toPhysical.update) query.toPhysical later statement ∧
            Trace.Answers past later statement rows) past
        ((session inTransaction patience).update query)) ∧
    ∀ query : FindOneQuery, (FieldName.physicalId, Value.null) ∉ Predicate.equalitiesOfList query.toPhysical.filters →
      Yields (Request.Writes (UpsertListed query.toPhysical)) (fun later _ => UpsertComplete query.toPhysical past later) past
        ((session inTransaction patience).upsert query) := by
  refine ⟨?inserts, ?updates, ?upserts⟩
  case inserts =>
    intro className fields hfields
    refine Obeys.mono ((yields_insertSent className fields).expecting fun _ _ h => h.listed hfields) ?_
    intro later _ _ hwanted object hobject
    obtain ⟨statement, rows, hsent, hanswers⟩ := hwanted object hobject
    exact ⟨statement, rows, hsent.listed hfields, hanswers⟩
  case updates =>
    intro query
    have hdistinct : query.toPhysical.update.Distinct := OrderedMap.distinct_ofList _
    refine Obeys.mono ((yields_updateSent query).expecting fun _ _ ⟨_, h⟩ => h.listed hdistinct) ?_
    intro later _ _ hwanted object? hobject hsome
    obtain ⟨statement, rows, ⟨_, hsent⟩, hanswers⟩ := hwanted object? hobject hsome
    exact ⟨statement, rows, hsent.listed hdistinct, hanswers⟩
  case upserts =>
    intro query hid
    have hdistinct : query.toPhysical.update.Distinct := OrderedMap.distinct_ofList _
    refine Obeys.mono ((yields_upsertSent query).expecting ?_) ?_
    · rintro later statement ⟨seed, hseed, hupdate | hinsert⟩
      · exact Or.inl ⟨seed, hseed, hupdate.listed hdistinct⟩
      · exact Or.inr (hinsert.listed hdistinct hseed hid)
    · intro later _ _ hwanted object? hobject
      obtain ⟨seed, statement, rows, hseed, hupdate, hanswers, hinserts⟩ := hwanted object? hobject
      refine ⟨seed, statement, rows, hseed, hupdate.listed hdistinct, hanswers, fun hnone => ?_⟩
      obtain ⟨insertion, others, hinsert, hinserted⟩ := hinserts hnone
      exact ⟨insertion, others, hinsert.listed hdistinct hseed hid, hinserted⟩

/-- An update-or-insert that fixes the id of its record. -/
def numbered : FindOneQuery where
  className := "T"
  filters := [.compare .equal (.key "id") (.literal (.string "a"))]
  update := [("n", .increment (.integer 1)), ("absent", .unset)]

theorem five_listed : OrderedMap.Distinct [("n", Value.integer 5), ("none", .null)] ∧
    (FieldName.physicalId, Value.null) ∉ Predicate.equalitiesOfList numbered.toPhysical.filters ∧
    Sends (InsertListed [("n", .integer 5), ("none", .null)]) [] ((session false 1).insert "T" [("n", .integer 5), ("none", .null)]) ∧
    Sends (UpsertListed numbered.toPhysical) [] ((session false 1).upsert numbered) ∧
    ¬Sends (fun _ _ => False) [] ((session false 1).insert "T" [("n", .integer 5), ("none", .null)]) := by
  have hdistinct : OrderedMap.Distinct [("n", Value.integer 5), ("none", .null)] := by
    decide
  have hid : (FieldName.physicalId, Value.null) ∉ Predicate.equalitiesOfList numbered.toPhysical.filters := by
    intro h
    cases List.mem_singleton.mp h
  refine ⟨hdistinct, hid, ?_, ?_, ?_⟩
  · exact Obeys.mono ((writes_list false 1 []).1 "T" _ hdistinct) fun _ _ _ _ => trivial
  · exact Obeys.mono ((writes_list false 1 []).2.2 numbered hid) fun _ _ _ _ => trivial
  · intro h
    let table : Table := { name := "T", columns := [("_id", .text), ("n", .bigint)] }
    have hlooked : Obeys _ _ [_] ((session false 1).insertOnce "T" table [("n", .integer 5), ("none", .null)]) :=
      h.answered (.ok [("T", "_id", "text"), ("T", "n", "bigint")])
    exact hlooked.insert_of_insertOnce { seconds := 0, nanos := 0 } "x" (not_mem_text (by decide))

end Dialogue

end Relational

end ObjectStore
