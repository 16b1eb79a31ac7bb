import ObjectStore.Proofs.Column
import ObjectStore.Proofs.Relational.Sending
import ObjectStore.Proofs.Relational.Statement

/-!
# Columns that writes go to

Every write checks the table before it sends a statement, so the column of a written value has a type that keeps it. Two writes slip through. An update-or-insert lists one type for each name, that of the seed, and so does not check the operand of an update that leaves a number of another kind there. And a table that it makes has an id of text, whatever id the filter fixes.
-/

namespace ObjectStore

namespace Relational

/-! ### Columns of an update-or-insert -/

theorem foldl_firstNames {columns : List Column} (h : (columns.map Column.name).Nodup) (known : List Column) :
    columns.foldl (fun columns column => if columns.any fun known => known.name == column.name then columns else columns ++ [column])
        known =
      known ++ columns.filter fun column => !known.any fun other => other.name == column.name := by
  induction columns generalizing known with
  | nil => exact (List.append_nil known).symm
  | cons column rest ih =>
    obtain ⟨hname, hrest⟩ := List.nodup_cons.mp h
    rw [List.foldl_cons, List.filter_cons]
    cases hit : known.any fun other => other.name == column.name with
    | true => exact ih hrest known
    | false =>
      rw [if_neg Bool.false_ne_true, ih hrest, Bool.not_false, if_pos rfl, List.append_assoc, List.singleton_append]
      congr 2
      apply List.filter_congr
      intro other hother
      have hne : column.name ≠ other.name := by
        intro same
        exact hname (List.mem_map.mpr ⟨other, hother, same.symm⟩)
      simp [hne]

section UpsertColumns

variable {seed : Fields} (hseed : seed.Distinct) {updates : Updates} (hupdates : updates.Distinct)

include hseed hupdates

/-- An update-or-insert lists the columns of its seed, and those of its updates that the seed leaves out. -/
theorem upsertColumns_eq : upsertColumns seed updates = Column.ofFields seed ++
    (Column.ofUpdates updates).filter fun column => !(Column.ofFields seed).any fun other => other.name == column.name := by
  rw [upsertColumns, List.foldl_append, foldl_firstNames (Column.nodup_ofFields hseed), List.nil_append]
  simp only [List.any_nil, Bool.not_false, List.filter_true]
  exact foldl_firstNames (Column.nodup_ofUpdates hupdates) _

theorem nodup_upsertColumns : ((upsertColumns seed updates).map Column.name).Nodup := by
  rw [upsertColumns_eq hseed hupdates, List.map_append, List.nodup_append]
  refine ⟨Column.nodup_ofFields hseed, (Column.nodup_ofUpdates hupdates).sublist (List.filter_sublist.map Column.name), ?_⟩
  intro name hname other hother same
  obtain ⟨column, hcolumn, rfl⟩ := List.mem_map.mp hother
  have hnew := (List.mem_filter.mp hcolumn).2
  obtain ⟨first, hfirst, hfound⟩ := List.mem_map.mp hname
  rw [Bool.not_eq_true', List.any_eq_false] at hnew
  exact hnew first hfirst (by simp [hfound, same])

theorem mem_upsertColumns_of_mem_ofFields {column : Column} (h : column ∈ Column.ofFields seed) : column ∈ upsertColumns seed updates := by
  rw [upsertColumns_eq hseed hupdates]
  exact List.mem_append_left _ h

theorem mem_upsertColumns_of_mem_ofUpdates {column : Column} (h : column ∈ Column.ofUpdates updates)
    (hnone : OrderedMap.get? seed column.name = none) : column ∈ upsertColumns seed updates := by
  rw [upsertColumns_eq hseed hupdates]
  refine List.mem_append_right _ (List.mem_filter.mpr ⟨h, ?_⟩)
  rw [Bool.not_eq_true', List.any_eq_false]
  intro other hother hname
  obtain ⟨value, hentry, -⟩ := Column.mem_ofFields.mp hother
  rw [beq_iff_eq.mp hname] at hentry
  exact OrderedMap.get?_eq_none_iff.mp hnone (OrderedMap.mem_keys_iff.mpr ⟨value, hentry⟩)

end UpsertColumns

/-! ### What writes keep -/

/-- Whether a field of a seed is a number of another kind than the operand of its update, which is no integer. -/
def Clashes (seed : Fields) (column : Column) : Prop :=
  ∃ value, OrderedMap.get? seed column.name = some value ∧ value.isNumeric = true ∧ FieldType.ofValue? value ≠ some column.type ∧
    (column.type = .number ∨ column.type = .decimal)

/-- A column for other numbers than integers keeps integers too. -/
theorem Table.Keeps.integer {table : Table} {name : String} {type : FieldType} (h : table.Keeps ⟨name, type⟩)
    (htype : type = .integer ∨ type = .number ∨ type = .decimal) : table.Keeps ⟨name, .integer⟩ := by
  obtain ⟨existing, hexisting, hholds⟩ := h
  refine ⟨existing, hexisting, ?_⟩
  rcases htype with rfl | rfl | rfl
  · exact hholds
  · cases existing <;> first | rfl | cases hholds
  · cases existing <;> first | rfl | cases hholds

/-- The table of an update-or-insert keeps the seed. It keeps the operands too, but for those that clash with the seed, and the id if it was there before. -/
structure Table.KeepsUpsert (table : Table) (query : FindOneQuery) (seed : Fields) : Prop where
  fields : ∀ column ∈ Column.ofFields seed, column.name ∉ FieldName.reserved → table.Keeps column
  id : ∀ column ∈ Column.ofFields seed, column.name = FieldName.physicalId →
    (∃ definitions, table = Table.create query.className definitions) ∨
      ∀ existing, table.column? column.name = some existing → existing.holds (SqlType.ofFieldType column.type) = true
  operands : ∀ column ∈ Column.ofUpdates query.update, table.Keeps column ∨ Clashes seed column

/-- A column that keeps what an update leaves keeps the operand of the update too, unless they are numbers of two kinds. -/
theorem Table.keeps_operand {table : Table} {name : String} {update : Update} {current : Option Value} {value : Value}
    (hkeeps : ∀ type, FieldType.ofValue? value = some type → table.Keeps ⟨name, type⟩)
    (happly : update.apply current = .ok (some value)) {type : FieldType} (htype : FieldType.ofUpdate? update = some type) :
    table.Keeps ⟨name, type⟩ ∨
      (value.isNumeric = true ∧ FieldType.ofValue? value ≠ some type ∧ (type = .number ∨ type = .decimal)) := by
  by_cases hsame : FieldType.ofValue? value = some type
  · exact Or.inl (hkeeps type hsame)
  rcases FieldType.ofValue?_of_apply happly htype with hwritten | ⟨hnumber, operand, hoperand, hnumeric⟩
  · exact absurd hwritten hsame
  have hkinds := FieldType.isNumeric_of_ofValue? hnumeric
  simp only [hoperand, Option.some.injEq] at hkinds
  rcases hkinds with rfl | hother
  · left
    rcases FieldType.isNumeric_of_ofValue? hnumber with hkind | hkind | hkind
    all_goals exact (hkeeps _ hkind).integer (by simp)
  · exact Or.inr ⟨hnumber, hsame, hother⟩

theorem Table.Synced.keepsUpsert {query : FindOneQuery} (hdistinct : query.update.Distinct)
    (hreserved : ∀ name ∈ FieldName.reserved, name ∉ OrderedMap.keys query.update) {seed : Fields}
    (hseed : query.upsertSeed = .ok seed) {table : Table}
    (h : Table.Synced query.className (upsertColumns seed query.update) table) : table.KeepsUpsert query seed := by
  have hfields : seed.Distinct := Updates.distinct_applyTo hseed query.distinct_seedFields
  have hnames := nodup_upsertColumns hfields hdistinct
  have hkeeps : ∀ column ∈ Column.ofFields seed, column.name ∉ FieldName.reserved → table.Keeps column := by
    intro column hcolumn
    exact h.keeps hnames (mem_upsertColumns_of_mem_ofFields hfields hdistinct hcolumn)
  refine ⟨hkeeps, ?_, ?_⟩
  · intro column hcolumn hid
    have hmem := mem_upsertColumns_of_mem_ofFields hfields hdistinct hcolumn
    rcases h.holds_reserved hnames hmem (by rw [hid]; decide) with hmade | hholds
    · exact Or.inl ⟨_, hmade⟩
    · exact Or.inr hholds
  · intro column hcolumn
    obtain ⟨update, hentry, htype⟩ := Column.mem_ofUpdates.mp hcolumn
    have hname : column.name ∉ FieldName.reserved := by
      intro hmem
      exact hreserved _ hmem (OrderedMap.mem_keys_iff.mpr ⟨update, hentry⟩)
    have happly := Updates.apply_of_applyTo hdistinct query.distinct_seedFields hseed (OrderedMap.get?_of_mem hdistinct hentry)
    cases hvalue : OrderedMap.get? seed column.name with
    | none => exact Or.inl (h.keeps hnames (mem_upsertColumns_of_mem_ofUpdates hfields hdistinct hcolumn hvalue) hname)
    | some value =>
      have hwritten : ∀ type, FieldType.ofValue? value = some type → table.Keeps ⟨column.name, type⟩ := by
        intro type hwritten
        exact hkeeps ⟨column.name, type⟩ (Column.mem_ofFields.mpr ⟨value, OrderedMap.mem_of_get? hvalue, hwritten⟩) hname
      rw [hvalue] at happly
      rcases Table.keeps_operand hwritten happly htype with hkept | hclash
      · exact Or.inl hkept
      · exact Or.inr ⟨value, hvalue, hclash⟩

/-! ### Statements that are sent -/

/-- Whether a statement inserts fields into a table that the server shows and that keeps them. -/
def InsertKept (fields : Fields) (past : Trace) (statement : Statement) : Prop :=
  ∃ table id now, Trace.Shows past table ∧ statement = Statement.insert table (Fields.stamped id now fields) none ∧
    ∀ column ∈ Column.ofFields fields, table.Keeps column

/-- Whether a statement updates a table that the server shows and that keeps the operands. -/
def UpdateKept (query : FindOneQuery) (past : Trace) (statement : Statement) : Prop :=
  ∃ table now, Trace.Shows past table ∧ Statement.update table query now = .ok statement ∧
    ∀ column ∈ Column.ofUpdates query.update, table.Keeps column

/-- Whether a statement updates a table that the server shows, or inserts a seed into it, and the table keeps what an update-or-insert writes. -/
def UpsertKept (query : FindOneQuery) (past : Trace) (statement : Statement) : Prop :=
  ∃ table seed, Trace.Shows past table ∧ query.upsertSeed = .ok seed ∧ table.KeepsUpsert query seed ∧
    ((∃ now, Statement.update table query now = .ok statement) ∨
      ∃ id now, statement = Statement.insert table
        (Fields.stamped id now (OrderedMap.filter (fun name _ => !FieldName.isReserved name) seed)) query.includes)

section Kept

variable {past : Trace} {statement : Statement}

theorem Table.Synced.keeps_ofFields {className : String} {fields : Fields} (hfields : fields.Distinct)
    (hplain : ∀ name ∈ OrderedMap.keys fields, FieldName.isReserved name = false) {table : Table}
    (h : Table.Synced className (Column.ofFields fields) table) : ∀ column ∈ Column.ofFields fields, table.Keeps column := by
  intro column hcolumn
  refine h.keeps (Column.nodup_ofFields hfields) hcolumn fun hreserved => ?_
  obtain ⟨value, hentry, -⟩ := Column.mem_ofFields.mp hcolumn
  have hname := hplain column.name (OrderedMap.mem_keys_iff.mpr ⟨value, hentry⟩)
  rw [FieldName.isReserved_of_mem (List.mem_append_right _ hreserved)] at hname
  cases hname

theorem InsertSent.kept {className : String} {fields : Fields} (hfields : fields.Distinct)
    (h : InsertSent className fields past statement) : InsertKept fields past statement := by
  obtain ⟨hplain, table, id, now, hshown, hsynced, hstatement⟩ := h
  exact ⟨table, .string id, .timestamp now, hshown, hstatement, hsynced.keeps_ofFields hfields hplain⟩

theorem UpdateSent.kept {className : String} {query : FindOneQuery} (hdistinct : query.update.Distinct)
    (h : UpdateSent className (Column.ofUpdates query.update) query past statement) : UpdateKept query past statement := by
  obtain ⟨hplain, table, now, hshown, hsynced, hstatement⟩ := h
  refine ⟨table, .timestamp now, hshown, hstatement, fun column hcolumn => ?_⟩
  refine hsynced.keeps (Column.nodup_ofUpdates hdistinct) hcolumn fun hreserved => ?_
  obtain ⟨update, hentry, -⟩ := Column.mem_ofUpdates.mp hcolumn
  exact hplain _ hreserved (OrderedMap.mem_keys_iff.mpr ⟨update, hentry⟩)

theorem UpsertSent.kept {query : FindOneQuery} (hdistinct : query.update.Distinct) (h : UpsertSent query past statement) :
    UpsertKept query past statement := by
  obtain ⟨seed, hseed, hupdate | hinsert⟩ := h
  · obtain ⟨hplain, table, now, hshown, hsynced, hstatement⟩ := hupdate
    exact ⟨table, seed, hshown, hseed, hsynced.keepsUpsert hdistinct hplain hseed, Or.inl ⟨_, hstatement⟩⟩
  · obtain ⟨hplain, table, id, now, hshown, hsynced, -, hstatement⟩ := hinsert
    have hkeeps := hsynced.keepsUpsert hdistinct (fun name hname => (hplain name hname).1) hseed
    exact ⟨table, seed, hshown, hseed, hkeeps, Or.inr ⟨id, _, hstatement⟩⟩

end Kept

namespace Dialogue

variable {inTransaction : Bool} {patience : Nat} {past : Trace}

theorem yields_insert (className : String) {fields : Fields} (hfields : fields.Distinct) :
    Yields (Request.Writes (InsertKept fields)) (fun _ _ => True) past ((session inTransaction patience).insert className fields) :=
  ((yields_insertSent className fields).expecting fun _ _ h => h.kept hfields).mono fun _ _ _ _ _ _ => trivial

theorem yields_update (query : FindOneQuery) : Yields (Request.Writes (UpdateKept query.toPhysical)) (fun _ _ => True) past
    ((session inTransaction patience).update query) := by
  have hdistinct : query.toPhysical.update.Distinct := OrderedMap.distinct_ofList _
  exact ((yields_updateSent query).expecting fun _ _ ⟨_, h⟩ => h.kept hdistinct).mono fun _ _ _ _ _ _ => trivial

theorem yields_upsert (query : FindOneQuery) : Yields (Request.Writes (UpsertKept query.toPhysical)) (fun _ _ => True) past
    ((session inTransaction patience).upsert query) := by
  have hdistinct : query.toPhysical.update.Distinct := OrderedMap.distinct_ofList _
  exact ((yields_upsertSent query).expecting fun _ _ h => h.kept hdistinct).mono fun _ _ _ _ _ _ => trivial

/-- Every statement that a write sends goes to a table that keeps what is written, but for clashing operands and for an id in a new table. -/
theorem writes_keep (inTransaction : Bool) (patience : Nat) (past : Trace) :
    (∀ className, ∀ fields : Fields, fields.Distinct →
      Sends (InsertKept fields) past ((session inTransaction patience).insert className fields)) ∧
    (∀ query, Sends (UpdateKept query.toPhysical) past ((session inTransaction patience).update query)) ∧
    ∀ query, Sends (UpsertKept query.toPhysical) past ((session inTransaction patience).upsert query) := by
  refine ⟨?_, ?_, ?_⟩
  · intro className fields hfields
    exact Obeys.mono (yields_insert className hfields) fun _ _ _ _ => trivial
  · intro query
    exact Obeys.mono (yields_update query) fun _ _ _ _ => trivial
  · intro query
    exact Obeys.mono (yields_upsert query) fun _ _ _ _ => trivial

theorem Obeys.insert_of_insertOnce {allowed : Trace → Request → Prop} {wanted : Trace → Outcome Object → Prop} {className : String}
    {table : Table} {fields : Fields} (h : Obeys allowed wanted past ((session false patience).insertOnce className table fields))
    (now : Instant) (id : String)
    (htext : '\x00' ∉ (Statement.insert table (Fields.stamped (.string id) (.timestamp now) fields) none).text.toList) :
    allowed (past ++ [⟨.now, now⟩] ++ [⟨.drawId, id⟩])
      (.query (Statement.insert table (Fields.stamped (.string id) (.timestamp now) fields) none)) := by
  have hsendable : ¬(Statement.insert table (Fields.stamped (.string id) (.timestamp now) fields) none).text.toList.contains '\x00' = true := by
    simpa using htext
  have hdrawn : Obeys allowed wanted (past ++ [⟨.now, now⟩] ++ [⟨.drawId, id⟩])
      (andThen ((session false patience).insertRecord table (Fields.stamped (.string id) (.timestamp now) fields) none) _) :=
    (h.answered now).answered id
  simp only [Session.insertRecord, Session.guarded, session, Bool.false_eq_true, if_false, Connection.rows, Connection.sending,
    if_neg hsendable] at hdrawn
  exact hdrawn.isAllowed

theorem five_kept : OrderedMap.Distinct [("n", Value.integer 5)] ∧
    Sends (InsertKept [("n", .integer 5)]) [] ((session false 1).insert "T" [("n", .integer 5)]) ∧
    ¬Sends (fun _ _ => False) [] ((session false 1).insert "T" [("n", .integer 5)]) := by
  have hdistinct : OrderedMap.Distinct [("n", Value.integer 5)] := by
    decide
  refine ⟨hdistinct, (writes_keep false 1 []).1 "T" _ hdistinct, ?_⟩
  intro h
  let table : Table := { name := "T", columns := [("_id", .text), ("n", .doublePrecision)] }
  let now : Instant := { seconds := 0, nanos := 0 }
  have hlooked : Obeys _ _ [_] ((session false 1).insertOnce "T" table [("n", .integer 5)]) :=
    h.answered (.ok [("T", "_id", "text"), ("T", "n", "double precision")])
  exact hlooked.insert_of_insertOnce now "x" (not_mem_text (by decide))

theorem Obeys.update_of_upsertOnce {allowed : Trace → Request → Prop} {wanted : Trace → Outcome (Option Object) → Prop} {table : Table}
    {query : FindOneQuery} {seed : Fields}
    (h : Obeys allowed wanted past ((session inTransaction patience).upsertOnce table query seed)) (now : Instant) {statement : Statement}
    (hstatement : Statement.update table query (.timestamp now) = .ok statement) (htext : '\x00' ∉ statement.text.toList) :
    allowed (past ++ [⟨.now, now⟩]) (.query statement) := by
  have hstamped := h.answered now
  have hsendable : ¬statement.text.toList.contains '\x00' = true := by simpa using htext
  simp only [Dialogue.bind, Function.comp_apply, hstatement, Session.firstObject, session, Connection.rows, Connection.sending,
    if_neg hsendable] at hstamped
  exact hstamped.isAllowed

/-- An update-or-insert whose seed is an integer and whose operand is not. -/
def narrowing : FindOneQuery where
  className := "T"
  update := [("n", .max (.number ⟨0x4004000000000000⟩))]
  setOnInsert := [("n", .integer 5)]

theorem narrowing_not_kept :
    ¬Sends (fun past _ => ∃ table, Trace.Shows past table ∧ ∀ column ∈ Column.ofUpdates narrowing.toPhysical.update, table.Keeps column)
      [] ((session false 1).upsert narrowing) := by
  intro h
  let table : Table := { name := "T", columns := [("_id", .text), ("n", .bigint)] }
  let now : Instant := { seconds := 0, nanos := 0 }
  have hlooked : Obeys _ _ [_] ((session false 1).upsertOnce table narrowing.toPhysical [("n", .integer 5)]) :=
    h.answered (.ok [("T", "_id", "text"), ("T", "n", "bigint")])
  obtain ⟨pieces, hstatement, hsendable⟩ : ∃ pieces, Statement.update table narrowing.toPhysical (.timestamp now) = .ok (.ofPieces pieces) ∧
      ∀ piece ∈ pieces, piece.isSendable = true := ⟨_, rfl, by decide⟩
  obtain ⟨other, hshown, hkeeps⟩ := hlooked.update_of_upsertOnce now hstatement (not_mem_text hsendable)
  have hother : other = table := by
    obtain ⟨name, rows, hlookup, htable⟩ := hshown.exists_lookup (by
      intro text answer hbatch
      rcases List.mem_cons.mp hbatch with hfirst | hlast
      · cases hfirst
      · cases List.mem_singleton.mp hlast)
    rcases List.mem_cons.mp hlookup with hfirst | hlast
    · cases hfirst
      exact (Option.some.inj htable).symm
    · cases List.mem_singleton.mp hlast
  obtain ⟨existing, hexisting, hholds⟩ := hkeeps ⟨"n", .number⟩ (by decide)
  rw [hother] at hexisting
  obtain rfl : SqlType.bigint = existing := Option.some.inj hexisting
  exact absurd hholds (by decide)

end Dialogue

end Relational

end ObjectStore
