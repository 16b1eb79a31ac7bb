import ObjectStore.Proofs.OrderedMap
import ObjectStore.Proofs.Outcome
import ObjectStore.Proofs.Relational.Dialogue

/-!
# Tables that keep what is written

Bringing a table up to date checks the columns that exist and makes the ones that do not. So every listed column is there afterwards with a type that keeps its values. The reserved columns are the exception: they are never made from a list, and those of a new table are not checked either.
-/

namespace ObjectStore

namespace Relational

/-- Whether a table has a column of a name and a type that keeps the listed type. -/
def Table.Keeps (table : Table) (column : Column) : Prop :=
  ∃ existing, table.column? column.name = some existing ∧ existing.holds (SqlType.ofFieldType column.type) = true

/-- What a table is after it was brought up to date: the one that was found, checked and widened, or a new one. -/
inductive Table.Synced (className : String) (columns : List Column) : Table → Prop where
  | widened (found : Table) (hchecked : found.checkColumns columns = .ok ()) :
      Synced className columns (found.addColumns (found.missing (wantedDefinitions columns)))
  | created : Synced className columns (Table.create className (wantedDefinitions columns))

/-- The tables that the answers of a server show: looked up in the catalog, made, or widened. -/
inductive Trace.Shows (past : Trace) : Table → Prop where
  | found {name : String} {rows : List (String × String × String)} {table : Table} (hlookup : ⟨.lookup name, .ok rows⟩ ∈ past)
      (htable : Table.ofCatalog? name rows = some table) : Shows past table
  | made {name : String} {definitions : Definitions} (hbatch : ⟨.batch (createTableText name definitions), .ok ()⟩ ∈ past) :
      Shows past (Table.create name definitions)
  | widened {table : Table} {definitions : Definitions} (hshown : Shows past table)
      (hbatch : ⟨.batch (addColumnsText table.name definitions), .ok ()⟩ ∈ past) : Shows past (table.addColumns definitions)

theorem Trace.Shows.later {past later : Trace} {table : Table} (h : Shows past table) (hlater : past <+: later) : Shows later table := by
  induction h with
  | found hlookup htable => exact .found (hlater.subset hlookup) htable
  | made hbatch => exact .made (hlater.subset hbatch)
  | widened _ hbatch ih => exact .widened ih (hlater.subset hbatch)

/-- Without a text that was sent, tables are shown by the catalog alone. -/
theorem Trace.Shows.exists_lookup {past : Trace} {table : Table} (h : Shows past table)
    (hnone : ∀ text answer, ⟨.batch text, answer⟩ ∉ past) :
    ∃ name rows, ⟨.lookup name, .ok rows⟩ ∈ past ∧ Table.ofCatalog? name rows = some table := by
  cases h with
  | found hlookup htable => exact ⟨_, _, hlookup, htable⟩
  | made hbatch => exact absurd hbatch (hnone _ _)
  | widened _ hbatch => exact absurd hbatch (hnone _ _)

/-- After one look-up and the time, the only table that is shown is the one that was looked up. -/
theorem Trace.Shows.ofCatalog?_eq {name : String} {rows : List (String × String × String)} {now : Instant} {table : Table}
    (h : Shows [⟨.lookup name, .ok rows⟩, ⟨.now, now⟩] table) : Table.ofCatalog? name rows = some table := by
  have hnone : ∀ text answer, ⟨.batch text, answer⟩ ∉ ([⟨.lookup name, .ok rows⟩, ⟨.now, now⟩] : Trace) := by
    intro text answer hbatch
    rcases List.mem_cons.mp hbatch with hfirst | hlast
    · cases hfirst
    · cases List.mem_singleton.mp hlast
  obtain ⟨other, others, hlookup, htable⟩ := h.exists_lookup hnone
  rcases List.mem_cons.mp hlookup with hfirst | hlast
  · cases hfirst
    exact htable
  · cases List.mem_singleton.mp hlast

@[simp] theorem SqlType.holds_self (type : SqlType) : type.holds type = true := by
  simp [holds]

namespace Table

variable {table : Table} {columns : List Column} {column : Column}

theorem checkColumn_eq_ok_iff : table.checkColumn column = .ok () ↔
    ∀ existing, table.column? column.name = some existing → existing.holds (SqlType.ofFieldType column.type) = true := by
  rw [checkColumn]
  cases table.column? column.name with
  | none => simp
  | some existing =>
    cases hholds : existing.holds (SqlType.ofFieldType column.type) <;> simp [hholds]

theorem checkColumns_eq_ok_iff : table.checkColumns columns = .ok () ↔ ∀ column ∈ columns, table.checkColumn column = .ok () := by
  induction columns with
  | nil => exact ⟨fun _ _ hnone => absurd hnone List.not_mem_nil, fun _ => rfl⟩
  | cons first rest ih =>
    rw [List.forall_mem_cons, ← ih]
    show ((table.checkColumn first).bind fun _ => table.checkColumns rest) = .ok () ↔ _
    rw [Outcome.bind_eq_ok_iff]
    exact ⟨fun ⟨_, hfirst, hrest⟩ => ⟨hfirst, hrest⟩, fun ⟨hfirst, hrest⟩ => ⟨(), hfirst, hrest⟩⟩

theorem mem_wantedDefinitions {name : String} {type : SqlType} :
    (name, type) ∈ wantedDefinitions columns ↔
      name ∉ FieldName.reserved ∧ ∃ column ∈ columns, column.name = name ∧ SqlType.ofFieldType column.type = type := by
  simp only [wantedDefinitions, List.mem_map, List.mem_filter, Prod.mk.injEq, Bool.not_eq_true', List.contains_eq_mem,
    decide_eq_false_iff_not]
  constructor
  · rintro ⟨column, ⟨hcolumn, hreserved⟩, rfl, rfl⟩
    exact ⟨hreserved, column, hcolumn, rfl, rfl⟩
  · rintro ⟨hreserved, column, hcolumn, rfl, rfl⟩
    exact ⟨column, ⟨hcolumn, hreserved⟩, rfl, rfl⟩

theorem distinct_wantedDefinitions (h : (columns.map Column.name).Nodup) : OrderedMap.Distinct (wantedDefinitions columns) := by
  have hnames : OrderedMap.keys (wantedDefinitions columns) =
      (columns.filter fun column => !FieldName.reserved.contains column.name).map Column.name := by
    rw [OrderedMap.keys, wantedDefinitions, List.map_map]
    rfl
  rw [OrderedMap.Distinct, hnames]
  exact h.sublist (List.filter_sublist.map Column.name)

/-- A column after a table was widened: the one that was there, or else the one that was listed. -/
theorem column?_addColumns {definitions : Definitions} (hdistinct : OrderedMap.Distinct definitions) (name : String) :
    (table.addColumns (table.missing definitions)).column? name =
      (table.column? name).or (OrderedMap.get? definitions name) := by
  have hmissing : OrderedMap.Distinct (table.missing definitions) :=
    hdistinct.sublist (List.filter_sublist.map Prod.fst)
  have hget : OrderedMap.get? (table.missing definitions) name =
      if !table.hasColumn name then OrderedMap.get? definitions name else none :=
    OrderedMap.get?_filter (fun name => !table.hasColumn name) definitions name
  rw [column?, addColumns, OrderedMap.get?_extend hmissing, hget, hasColumn, OrderedMap.contains, column?]
  cases OrderedMap.get? table.columns name <;> simp

theorem column?_create {definitions : Definitions} (hdistinct : OrderedMap.Distinct definitions) (className name : String) :
    (create className definitions).column? name =
      (OrderedMap.get? definitions name).or (OrderedMap.get? reserved name) :=
  OrderedMap.get?_extend hdistinct name

namespace Synced

variable {className : String} (h : Synced className columns table) (hnames : (columns.map Column.name).Nodup)
  (hcolumn : column ∈ columns)

include hnames in
theorem get?_wantedDefinitions (hcolumn : column ∈ columns) (hreserved : column.name ∉ FieldName.reserved) :
    OrderedMap.get? (wantedDefinitions columns) column.name = some (SqlType.ofFieldType column.type) :=
  OrderedMap.get?_of_mem (distinct_wantedDefinitions hnames) (mem_wantedDefinitions.mpr ⟨hreserved, column, hcolumn, rfl, rfl⟩)

include h hnames hcolumn

theorem keeps (hreserved : column.name ∉ FieldName.reserved) : table.Keeps column := by
  have hwanted := get?_wantedDefinitions hnames hcolumn hreserved
  cases h with
  | created =>
    refine ⟨SqlType.ofFieldType column.type, ?_, SqlType.holds_self _⟩
    rw [column?_create (distinct_wantedDefinitions hnames), hwanted, Option.some_or]
  | widened found hchecked =>
    have hfound := @column?_addColumns found _ (distinct_wantedDefinitions hnames) column.name
    cases hexisting : found.column? column.name with
    | none =>
      rw [hexisting, Option.none_or, hwanted] at hfound
      exact ⟨_, hfound, SqlType.holds_self _⟩
    | some existing =>
      rw [hexisting, Option.some_or] at hfound
      have hchecks := checkColumns_eq_ok_iff.mp hchecked column hcolumn
      exact ⟨existing, hfound, checkColumn_eq_ok_iff.mp hchecks existing hexisting⟩

theorem holds_reserved (hreserved : column.name ∈ FieldName.reserved) :
    table = create className (wantedDefinitions columns) ∨
      ∀ existing, table.column? column.name = some existing → existing.holds (SqlType.ofFieldType column.type) = true := by
  cases h with
  | created => exact Or.inl rfl
  | widened found hchecked =>
    right
    intro existing hexisting
    have hnone : OrderedMap.get? (wantedDefinitions columns) column.name = none := by
      refine OrderedMap.get?_eq_none_iff.mpr fun hmem => ?_
      obtain ⟨type, htype⟩ := OrderedMap.mem_keys_iff.mp hmem
      exact (mem_wantedDefinitions.mp htype).1 hreserved
    rw [column?_addColumns (distinct_wantedDefinitions hnames), hnone, Option.or_none] at hexisting
    exact checkColumn_eq_ok_iff.mp (checkColumns_eq_ok_iff.mp hchecked column hcolumn) existing hexisting

end Synced

end Table

/-! ### Bringing a table up to date -/

namespace Dialogue

variable {allowed : Trace → Request → Prop} {inTransaction : Bool} {patience : Nat}
  (hlookup : ∀ past name, allowed past (.lookup name)) (hbatch : ∀ past text, allowed past (.batch text))

include hlookup in
theorem yields_table? (past : Trace) (name : String) :
    Yields allowed (fun later found? => ∀ table, found? = some table → Trace.Shows later table) past
      ((session inTransaction patience).catalog.table? name) := by
  apply Obeys.bind (obeys_ask (hlookup past name))
  intro later answer _ hmem
  apply yields_pure
  intro found? hfound table htable
  cases answer with
  | error error => cases hfound
  | ok rows =>
    obtain rfl := Except.ok.inj hfound
    exact .found hmem htable

include hbatch in
theorem yields_schemaText (past : Trace) (text : String) :
    Yields allowed (fun later _ => ⟨.batch text, .ok ()⟩ ∈ later) past
      ((session inTransaction patience).guarded schemaSavepoint (connection.run text)) :=
  yields_guarded hbatch (fun later _ => yields_run (hbatch later text)) fun _ _ _ hlater hmem => hlater.subset hmem

include hlookup hbatch

theorem yields_syncOnce (past : Trace) (className : String) (columns : List Column) :
    Yields allowed (fun later table => Table.Synced className columns table ∧ Trace.Shows later table) past
      (syncOnce (session inTransaction patience).catalog className columns) := by
  apply (yields_table? hlookup past className).andThen
  intro looked found? _ hshown
  cases found? with
  | none =>
    apply (yields_schemaText hbatch looked _).andThen
    intro later _ _ hmade
    exact yields_ok ⟨.created, .made hmade⟩
  | some found =>
    dsimp only
    cases hchecked : found.checkColumns columns with
    | error failure => exact yields_error failure
    | ok _ =>
      have hsynced : Table.Synced className columns (found.addColumns (found.missing (wantedDefinitions columns))) :=
        .widened found hchecked
      dsimp only
      split
      · next hnone =>
        rw [List.isEmpty_iff.mp hnone] at hsynced
        exact yields_ok ⟨hsynced, hshown found rfl⟩
      · apply (yields_schemaText hbatch looked _).andThen
        intro later _ hlater hwidened
        exact yields_ok ⟨hsynced, .widened ((hshown found rfl).later hlater) hwidened⟩

/-- A table that was brought up to date is one that the server shows. -/
theorem yields_sync (past : Trace) (className : String) (columns : List Column) :
    Yields allowed (fun later table => Table.Synced className columns table ∧ Trace.Shows later table) past
      ((session inTransaction patience).sync className columns) := by
  rw [Session.sync]
  split
  · exact yields_error _
  · exact yields_retryRaces fun _ later _ => yields_syncOnce hlookup hbatch later className columns

theorem yields_extend {past : Trace} {table : Table} (hshown : Trace.Shows past table) (columns : List Column) :
    Yields allowed (fun later widened => Table.Synced table.name columns widened ∧ Trace.Shows later widened) past
      (extend (session inTransaction patience).catalog patience table columns) := by
  rw [extend]
  split
  · next hall =>
    apply yields_pure
    intro widened hwidened
    obtain ⟨_, hchecked, rfl⟩ := Outcome.map_eq_ok_iff.mp hwidened
    have hnone : table.missing (wantedDefinitions columns) = [] := by
      rw [Table.missing, List.filter_eq_nil_iff]
      rintro ⟨name, type⟩ hwanted
      obtain ⟨-, column, hcolumn, rfl, -⟩ := Table.mem_wantedDefinitions.mp hwanted
      simp [List.all_eq_true.mp hall column hcolumn]
    have hsynced : Table.Synced table.name columns (table.addColumns (table.missing (wantedDefinitions columns))) :=
      .widened table hchecked
    rw [hnone] at hsynced
    exact ⟨hsynced, hshown⟩
  · exact yields_retryRaces fun _ later _ => yields_syncOnce hlookup hbatch later table.name columns

end Dialogue

end Relational

end ObjectStore
