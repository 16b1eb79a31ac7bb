import ObjectStore.Proofs.Relational.Catalog

/-!
# One writer at a catalog

What a writer leaves that has a catalog to itself. It looks the table of a class up, checks it, and makes one definition at most, and the table that it returns is the one that the catalog has then. To bring the table up to date again changes nothing, with one exception: the reserved columns of a table that is made are not checked against the list, so a list that asks for another type of a reserved column is refused the second time.
-/

namespace ObjectStore

namespace Relational

namespace Writer

variable {α β : Type} {fold : String → String}

/-- The end of a writer: its result, the tables that it leaves, and the definitions that it made. -/
structure Finish (α : Type) where
  result : α
  tables : Tables
  definitions : List Access

/-- The run of a writer that no other one disturbs. -/
def alone (fold : String → String) : Writer α → Tables → Finish α
  | done result, tables => { result, tables, definitions := [] }
  | step access next, tables =>
    let rest := (next (.ok (tables.answer fold access))).alone fold (tables.after access)
    { rest with definitions := (if access.isDefinition then [access] else []) ++ rest.definitions }

theorem alone_bind (writer : Writer α) (k : α → Writer β) (tables : Tables) :
    (writer >>= k).alone fold tables =
      let first := writer.alone fold tables
      let second := (k first.result).alone fold first.tables
      { second with definitions := first.definitions ++ second.definitions } := by
  induction writer generalizing tables with
  | done result => rfl
  | step access next ih =>
    have hnext := ih (.ok (tables.answer fold access)) (tables.after access)
    show (Writer.step access fun answer => next answer >>= k).alone fold tables = _
    simp only [alone, hnext, List.append_assoc]

theorem alone_retryFrom {races : List Race} {operation : Nat → Writer (Outcome α)} {attempt : Nat} {tables : Tables}
    (h : ∀ failure, ((operation attempt).alone fold tables).result = .error failure → failure.isOneOf races = false)
    (remaining : Nat) :
    (retryFrom races operation remaining attempt).alone fold tables = (operation attempt).alone fold tables := by
  cases remaining with
  | zero => rfl
  | succ remaining =>
    rw [retryFrom, alone_bind]
    generalize (operation attempt).alone fold tables = finish at h ⊢
    obtain ⟨result, left, definitions⟩ := finish
    cases result with
    | ok a => simp [alone, pure]
    | error failure => simp [h failure rfl, alone, pure]

end Writer

/-- How a writer ends that brings the table of a class up to date alone. -/
inductive Tables.SyncedTo (fold : String → String) (tables : Tables) (className : String) (columns : List Column) :
    Writer.Finish (Outcome Table) → Prop where
  | created (hnone : tables.lookup fold className = none) :
      SyncedTo fold tables className columns
        { result := .ok (Table.create className (wantedDefinitions columns))
          tables := tables.after (.create className (wantedDefinitions columns))
          definitions := [.create className (wantedDefinitions columns)] }
  | refused {found : Table} {failure : Failure} (hfound : tables.lookup fold className = some found)
      (hrefused : found.checkColumns columns = .error failure) :
      SyncedTo fold tables className columns { result := .error failure, tables, definitions := [] }
  | current {found : Table} (hfound : tables.lookup fold className = some found) (hchecked : found.checkColumns columns = .ok ())
      (hmissing : found.missing (wantedDefinitions columns) = []) :
      SyncedTo fold tables className columns { result := .ok found, tables, definitions := [] }
  | widened {found : Table} (hfound : tables.lookup fold className = some found) (hchecked : found.checkColumns columns = .ok ())
      (hmissing : found.missing (wantedDefinitions columns) ≠ []) :
      SyncedTo fold tables className columns
        { result := .ok (found.addColumns (found.missing (wantedDefinitions columns)))
          tables := tables.after (.add found.name (found.missing (wantedDefinitions columns)))
          definitions := [.add found.name (found.missing (wantedDefinitions columns))] }

theorem Table.exists_of_checkColumns {table : Table} {columns : List Column} {failure : Failure}
    (h : table.checkColumns columns = .error failure) :
    ∃ column ∈ columns, ∃ existing, table.column? column.name = some existing ∧
      existing.holds (SqlType.ofFieldType column.type) = false ∧ failure = table.narrowing column existing := by
  induction columns with
  | nil => cases h
  | cons first rest ih =>
    change ((table.checkColumn first).bind fun _ => table.checkColumns rest) = .error failure at h
    rcases Outcome.bind_eq_error_iff.mp h with hfirst | ⟨_, -, hrest⟩
    · rw [checkColumn] at hfirst
      cases hexisting : table.column? first.name with
      | none => simp [hexisting] at hfirst
      | some existing =>
        cases hholds : existing.holds (SqlType.ofFieldType first.type) with
        | true => simp [hexisting, hholds] at hfirst
        | false =>
          simp only [hexisting, hholds, Bool.false_eq_true, if_false, Except.error.injEq] at hfirst
          exact ⟨first, List.mem_cons_self, existing, hexisting, hholds, hfirst.symm⟩
    · obtain ⟨column, hcolumn, hfound⟩ := ih hrest
      exact ⟨column, List.mem_cons_of_mem _ hcolumn, hfound⟩

theorem Tables.SyncedTo.loses_no_race {fold : String → String} {tables : Tables} {className : String} {columns : List Column}
    {finish : Writer.Finish (Outcome Table)} (h : tables.SyncedTo fold className columns finish) {failure : Failure}
    (hfailure : finish.result = .error failure) : failure.isOneOf [.duplicateTable] = false := by
  cases h with
  | refused _ hrefused =>
    cases hfailure
    obtain ⟨column, -, existing, -, -, rfl⟩ := Table.exists_of_checkColumns hrefused
    rfl
  | created _ => cases hfailure
  | current _ _ _ => cases hfailure
  | widened _ _ _ => cases hfailure

namespace Writer

variable {fold : String → String}

theorem alone_andThen_table? (fold : String → String) (tables : Tables) (className : String) {α : Type}
    (next : Option Table → Writer (Outcome α)) :
    (andThen (catalog.table? className) next).alone fold tables = (next (tables.lookup fold className)).alone fold tables := rfl

theorem alone_syncOnce (fold : String → String) (tables : Tables) (className : String) (columns : List Column) :
    tables.SyncedTo fold className columns ((syncOnce catalog className columns).alone fold tables) := by
  rw [syncOnce, alone_andThen_table?]
  cases hfound : tables.lookup fold className with
  | none => exact .created hfound
  | some found =>
    dsimp only
    cases hchecked : found.checkColumns columns with
    | error failure => exact .refused hfound hchecked
    | ok _ =>
      dsimp only
      split
      · next hmissing => exact .current hfound hchecked (List.isEmpty_iff.mp hmissing)
      · next hmissing => exact .widened hfound hchecked (by simpa using hmissing)

theorem alone_sync_eq (fold : String → String) (tables : Tables) (patience : Nat) (className : String) (columns : List Column) :
    (sync catalog patience className columns).alone fold tables = (syncOnce catalog className columns).alone fold tables :=
  @alone_retryFrom _ fold _ (fun _ => syncOnce catalog className columns) 0 tables
    (fun _ => (alone_syncOnce fold tables className columns).loses_no_race) _

theorem alone_sync (fold : String → String) (tables : Tables) (patience : Nat) (className : String) (columns : List Column) :
    tables.SyncedTo fold className columns ((sync catalog patience className columns).alone fold tables) := by
  rw [alone_sync_eq]
  exact alone_syncOnce fold tables className columns

end Writer

/-! ### What a table is after it was brought up to date -/

namespace Table

variable {table found : Table} {columns : List Column}

/-- Whether the reserved columns of a table that is made keep what is listed for them. -/
def ReservedKeep (columns : List Column) : Prop :=
  ∀ column ∈ columns, ∀ existing, OrderedMap.get? reserved column.name = some existing →
    existing.holds (SqlType.ofFieldType column.type) = true

theorem get?_wantedDefinitions_of_reserved {name : String} (h : name ∈ FieldName.reserved) :
    OrderedMap.get? (wantedDefinitions columns) name = none := by
  refine OrderedMap.get?_eq_none_iff.mpr fun hmem => ?_
  obtain ⟨type, htype⟩ := OrderedMap.mem_keys_iff.mp hmem
  exact (mem_wantedDefinitions.mp htype).1 h

theorem missing_eq_nil_iff :
    table.missing (wantedDefinitions columns) = [] ↔
      ∀ column ∈ columns, column.name ∉ FieldName.reserved → table.hasColumn column.name = true := by
  simp only [missing, List.filter_eq_nil_iff, Bool.not_eq_true', Bool.not_eq_false, Prod.forall, mem_wantedDefinitions]
  constructor
  · intro h column hcolumn hreserved
    exact h _ _ ⟨hreserved, column, hcolumn, rfl, rfl⟩
  · rintro h name type ⟨hreserved, column, hcolumn, rfl, -⟩
    exact h column hcolumn hreserved

theorem prefix_addColumns (table : Table) (definitions : Definitions) :
    table.columns <+: (table.addColumns (table.missing definitions)).columns := by
  have hnew : ∀ name ∈ OrderedMap.keys (table.missing definitions), name ∉ OrderedMap.keys table.columns := by
    intro name hname
    obtain ⟨type, htype⟩ := OrderedMap.mem_keys_iff.mp hname
    have hmissing := (List.mem_filter.mp htype).2
    rw [← OrderedMap.contains_eq_true_iff]
    simpa [hasColumn] using hmissing
  have hextend := OrderedMap.extend_append_of_not_mem hnew []
  rw [List.append_nil] at hextend
  rw [addColumns, hextend]
  exact List.prefix_append _ _

variable (hnames : (columns.map Column.name).Nodup)

include hnames

theorem missing_of_synced {className : String} (h : Synced className columns table) :
    table.missing (wantedDefinitions columns) = [] := by
  refine missing_eq_nil_iff.mpr fun column hcolumn hreserved => ?_
  obtain ⟨existing, hexisting, -⟩ := h.keeps hnames hcolumn hreserved
  exact Option.isSome_iff_exists.mpr ⟨existing, hexisting⟩

theorem keeps_widened (h : found.checkColumns columns = .ok ()) {column : Column} (hcolumn : column ∈ columns)
    (hreserved : column.name ∉ FieldName.reserved) : (found.addColumns (found.missing (wantedDefinitions columns))).Keeps column := by
  have hsynced : Synced found.name columns (found.addColumns (found.missing (wantedDefinitions columns))) := .widened found h
  exact hsynced.keeps hnames hcolumn hreserved

theorem checkColumns_widened (h : found.checkColumns columns = .ok ()) :
    (found.addColumns (found.missing (wantedDefinitions columns))).checkColumns columns = .ok () := by
  refine checkColumns_eq_ok_iff.mpr fun column hcolumn => checkColumn_eq_ok_iff.mpr fun existing hexisting => ?_
  by_cases hreserved : column.name ∈ FieldName.reserved
  · rw [column?_addColumns (distinct_wantedDefinitions hnames), get?_wantedDefinitions_of_reserved hreserved, Option.or_none]
      at hexisting
    exact checkColumn_eq_ok_iff.mp (checkColumns_eq_ok_iff.mp h column hcolumn) existing hexisting
  · obtain ⟨kept, hkept, hholds⟩ := keeps_widened hnames h hcolumn hreserved
    rw [hkept] at hexisting
    exact Option.some.inj hexisting ▸ hholds

/-- A table that was made is refused by the list that it was made for if its reserved columns do not keep what is listed. -/
theorem checkColumns_create_iff (className : String) :
    (create className (wantedDefinitions columns)).checkColumns columns = .ok () ↔ ReservedKeep columns := by
  have hcreated (name : String) := column?_create (distinct_wantedDefinitions hnames) className name
  rw [checkColumns_eq_ok_iff]
  refine forall₂_congr fun column hcolumn => ?_
  rw [checkColumn_eq_ok_iff, hcreated]
  by_cases hreserved : column.name ∈ FieldName.reserved
  · rw [get?_wantedDefinitions_of_reserved hreserved, Option.none_or]
  · have hnone : OrderedMap.get? reserved column.name = none := OrderedMap.get?_eq_none_iff.mpr hreserved
    rw [Synced.get?_wantedDefinitions hnames hcolumn hreserved, hnone]
    simp

end Table

/-! ### The run of one writer -/

/-- What a writer has done that brought the table of a class up to date and returns it. -/
structure Writer.Finish.UpToDate (fold : String → String) (tables : Tables) (className : String) (columns : List Column)
    (finish : Writer.Finish (Outcome Table)) (table : Table) : Prop where
  current : finish.tables.lookup fold className = some table
  /-- The columns that were there keep their types and places. -/
  kept : ∀ found, tables.lookup fold className = some found → found.name = table.name ∧ found.columns <+: table.columns
  others : ∀ name, name ≠ table.name → finish.tables.get? name = tables.get? name
  present : ∀ column ∈ columns, column.name ∉ FieldName.reserved → table.Keeps column
  /-- A column that is new has the type that was asked for. -/
  fresh : ∀ column ∈ columns, column.name ∉ FieldName.reserved →
    (∀ found, tables.lookup fold className = some found → found.hasColumn column.name = false) →
    table.column? column.name = some (SqlType.ofFieldType column.type)
  once : finish.definitions.length ≤ 1
  idle : ∀ found, tables.lookup fold className = some found →
    (∀ column ∈ columns, column.name ∉ FieldName.reserved → found.hasColumn column.name = true) → finish.definitions = []

namespace Tables

variable {fold : String → String} {tables : Tables} {className : String} {columns : List Column}
  {finish : Writer.Finish (Outcome Table)} {table : Table}

/-- The run depends on the table that is found, not on the name under which it was looked up. -/
theorem SyncedTo.unique {other : String} {otherFinish : Writer.Finish (Outcome Table)} (h : tables.SyncedTo fold className columns finish)
    (hother : tables.SyncedTo fold other columns otherFinish) (hfound : tables.lookup fold className = some table)
    (hotherFound : tables.lookup fold other = some table) : finish = otherFinish := by
  cases h <;> cases hother <;> simp_all

variable (hnames : (columns.map Column.name).Nodup)

include hnames

theorem upToDate_created (hnone : tables.lookup fold className = none) :
    Writer.Finish.UpToDate fold tables className columns
      { result := .ok (Table.create className (wantedDefinitions columns))
        tables := tables.after (.create className (wantedDefinitions columns))
        definitions := [.create className (wantedDefinitions columns)] }
      (Table.create className (wantedDefinitions columns)) where
  current := by
    apply lookup_of_get?
    rw [get?_after_create, get?_eq_none_of_lookup hnone, Option.none_or, if_pos rfl]
  kept := by simp [hnone]
  others name hname := by
    have hne : className ≠ name := Ne.symm hname
    rw [get?_after_create, if_neg hne, Option.or_none]
  present column hcolumn hreserved := Table.Synced.created.keeps hnames hcolumn hreserved
  fresh column hcolumn hreserved _ := by
    rw [Table.column?_create (Table.distinct_wantedDefinitions hnames), Table.Synced.get?_wantedDefinitions hnames hcolumn hreserved,
      Option.some_or]
  once := Nat.le_refl 1
  idle := by simp [hnone]

theorem upToDate_current (hfound : tables.lookup fold className = some table) (hchecked : table.checkColumns columns = .ok ())
    (hmissing : table.missing (wantedDefinitions columns) = []) :
    Writer.Finish.UpToDate fold tables className columns { result := .ok table, tables, definitions := [] } table where
  current := hfound
  kept found hother := by simp [Option.some.inj (hother.symm.trans hfound)]
  others _ _ := rfl
  present column hcolumn hreserved := by
    have hkeeps := Table.keeps_widened hnames hchecked hcolumn hreserved
    rwa [hmissing] at hkeeps
  fresh column hcolumn hreserved hnew := by
    have hthere := Table.missing_eq_nil_iff.mp hmissing column hcolumn hreserved
    rw [hnew table hfound] at hthere
    cases hthere
  once := Nat.zero_le 1
  idle _ _ _ := rfl

theorem upToDate_widened (hfound : tables.lookup fold className = some table) (hchecked : table.checkColumns columns = .ok ())
    (hmissing : table.missing (wantedDefinitions columns) ≠ []) :
    Writer.Finish.UpToDate fold tables className columns
      { result := .ok (table.addColumns (table.missing (wantedDefinitions columns)))
        tables := tables.after (.add table.name (table.missing (wantedDefinitions columns)))
        definitions := [.add table.name (table.missing (wantedDefinitions columns))] }
      (table.addColumns (table.missing (wantedDefinitions columns))) where
  current := by
    have hdistinct : OrderedMap.Distinct (table.missing (wantedDefinitions columns)) :=
      (Table.distinct_wantedDefinitions hnames).sublist (List.filter_sublist.map Prod.fst)
    rw [lookup_after_add, hfound, Option.map_some, if_pos rfl, Table.addNew_eq table hdistinct, Table.missing_missing]
  kept found hother := by
    obtain rfl := Option.some.inj (hfound.symm.trans hother)
    exact ⟨rfl, Table.prefix_addColumns table (wantedDefinitions columns)⟩
  others name hname := by
    rw [get?_after_add]
    cases hother : tables.get? name with
    | none => rfl
    | some other =>
      have hne : other.name ≠ table.name := by
        rw [name_of_get? hother]
        exact hname
      rw [Option.map_some, if_neg hne]
  present column hcolumn hreserved := Table.keeps_widened hnames hchecked hcolumn hreserved
  fresh column hcolumn hreserved hnew := by
    have hnone : table.column? column.name = none := by
      simpa [Table.hasColumn, Table.column?, OrderedMap.contains] using hnew table hfound
    rw [Table.column?_addColumns (Table.distinct_wantedDefinitions hnames), hnone, Option.none_or,
      Table.Synced.get?_wantedDefinitions hnames hcolumn hreserved]
  once := Nat.le_refl 1
  idle found hother hthere := by
    obtain rfl := Option.some.inj (hfound.symm.trans hother)
    exact absurd (Table.missing_eq_nil_iff.mpr hthere) hmissing

theorem SyncedTo.upToDate (h : tables.SyncedTo fold className columns finish) (hresult : finish.result = .ok table) :
    finish.UpToDate fold tables className columns table := by
  cases h with
  | created hnone =>
    obtain rfl := Except.ok.inj hresult
    exact upToDate_created hnames hnone
  | refused _ _ => cases hresult
  | current hfound hchecked hmissing =>
    obtain rfl := Except.ok.inj hresult
    exact upToDate_current hnames hfound hchecked hmissing
  | widened hfound hchecked hmissing =>
    obtain rfl := Except.ok.inj hresult
    exact upToDate_widened hnames hfound hchecked hmissing

/-- The table that is returned has no column missing, and it is refused at once only if it was made and the reserved columns do not keep what is listed. -/
theorem SyncedTo.checked_iff (h : tables.SyncedTo fold className columns finish) (hresult : finish.result = .ok table) :
    table.missing (wantedDefinitions columns) = [] ∧
      (table.checkColumns columns = .ok () ↔ (tables.lookup fold className).isSome ∨ Table.ReservedKeep columns) := by
  cases h with
  | created hnone =>
    obtain rfl := Except.ok.inj hresult
    refine ⟨Table.missing_of_synced hnames .created, ?_⟩
    rw [Table.checkColumns_create_iff hnames, hnone]
    simp
  | refused _ _ => cases hresult
  | current hfound hchecked hmissing =>
    obtain rfl := Except.ok.inj hresult
    exact ⟨hmissing, by simp [hchecked, hfound]⟩
  | widened hfound hchecked hmissing =>
    obtain rfl := Except.ok.inj hresult
    have hsynced : Table.Synced className columns _ := .widened _ hchecked
    exact ⟨Table.missing_of_synced hnames hsynced, by simp [Table.checkColumns_widened hnames hchecked, hfound]⟩

end Tables

namespace Writer

variable {fold : String → String} {tables : Tables} {columns : List Column} {className : String} {table : Table} {patience : Nat}

theorem alone_sync_iff (hfound : tables.lookup fold className = some table) (hmissing : table.missing (wantedDefinitions columns) = []) :
    (sync catalog patience className columns).alone fold tables = { result := .ok table, tables, definitions := [] } ↔
      table.checkColumns columns = .ok () := by
  have hrun := alone_sync fold tables patience className columns
  generalize (sync catalog patience className columns).alone fold tables = finish at hrun
  cases hrun with
  | created hnone => simp [hnone] at hfound
  | refused hother hrefused =>
    obtain rfl := Option.some.inj (hother.symm.trans hfound)
    simp [hrefused]
  | current hother hchecked _ =>
    obtain rfl := Option.some.inj (hother.symm.trans hfound)
    simp [hchecked]
  | widened hother _ hnew =>
    obtain rfl := Option.some.inj (hother.symm.trans hfound)
    exact absurd hmissing hnew

theorem alone_extend (hfound : tables.lookup fold className = some table) :
    (extend catalog patience table columns).alone fold tables = (sync catalog patience className columns).alone fold tables := by
  have hrun := alone_sync fold tables patience className columns
  rw [extend]
  split
  · next hall =>
    have hmissing : table.missing (wantedDefinitions columns) = [] :=
      Table.missing_eq_nil_iff.mpr fun column hcolumn _ => List.all_eq_true.mp hall column hcolumn
    cases hchecked : table.checkColumns columns with
    | ok _ =>
      rw [(alone_sync_iff hfound hmissing).mpr hchecked]
      rfl
    | error failure =>
      refine Tables.SyncedTo.unique (.refused hfound hchecked) hrun hfound hfound
  · have hname : tables.lookup fold table.name = some table := Tables.lookup_of_get? (Tables.get?_of_lookup hfound)
    exact (alone_sync fold tables patience table.name columns).unique hrun hname hfound

/-- A writer that has the catalog to itself brings the table of a class up to date with one definition at most, or is refused by an existing column before it makes any. -/
theorem sync_undisturbed (fold : String → String) (tables : Tables) (patience : Nat) (className : String)
    (hnames : (columns.map Column.name).Nodup) :
    let finish := (sync catalog patience className columns).alone fold tables
    (∀ table, finish.result = .ok table →
      finish.UpToDate fold tables className columns table ∧
      ((sync catalog patience className columns).alone fold finish.tables =
          { result := .ok table, tables := finish.tables, definitions := [] } ↔
        (tables.lookup fold className).isSome ∨ Table.ReservedKeep columns)) ∧
    (∀ failure, finish.result = .error failure →
      (∃ found, tables.lookup fold className = some found ∧ ∃ column ∈ columns, ∃ existing,
        found.column? column.name = some existing ∧ existing.holds (SqlType.ofFieldType column.type) = false ∧
          failure = found.narrowing column existing) ∧
      finish.tables = tables ∧ finish.definitions = []) ∧
    ∀ found, tables.lookup fold className = some found → (extend catalog patience found columns).alone fold tables = finish := by
  intro finish
  have hrun : tables.SyncedTo fold className columns finish := alone_sync fold tables patience className columns
  refine ⟨?_, ?_, ?_⟩
  · intro table hresult
    have hupToDate := hrun.upToDate hnames hresult
    obtain ⟨hmissing, hchecked⟩ := hrun.checked_iff hnames hresult
    exact ⟨hupToDate, (alone_sync_iff hupToDate.current hmissing).trans hchecked⟩
  · intro failure hresult
    generalize finish = finish at hrun hresult
    cases hrun with
    | refused hfound hrefused =>
      obtain rfl := Except.error.inj hresult
      exact ⟨⟨_, hfound, Table.exists_of_checkColumns hrefused⟩, rfl, rfl⟩
    | created _ => cases hresult
    | current _ _ _ => cases hresult
    | widened _ _ _ => cases hresult
  · intro found hfound
    exact alone_extend hfound

theorem widening_undisturbed :
    let fold := fun name => if name = "T" then "t" else name
    let tables : Tables := [{ name := "t", columns := [("_id", .text), ("a", .numeric)] }]
    let columns : List Column := [⟨"a", .integer⟩, ⟨"b", .string⟩, ⟨"_id", .string⟩]
    let table : Table := { name := "t", columns := [("_id", .text), ("a", .numeric), ("b", .text)] }
    (columns.map Column.name).Nodup ∧
    (sync catalog 1 "T" columns).alone fold tables =
      { result := .ok table, tables := [table], definitions := [.add "t" [("b", .text)]] } ∧
    (sync catalog 1 "T" columns).alone fold [table] = { result := .ok table, tables := [table], definitions := [] } := by
  intro fold tables columns table
  have hnames : (columns.map Column.name).Nodup := by decide
  refine ⟨hnames, rfl, ?_⟩
  obtain ⟨-, hagain⟩ := (sync_undisturbed fold tables 1 "T" hnames).1 table rfl
  exact hagain.mpr (.inl rfl)

/-- A table is made with an id that is text, though an integer is listed. -/
theorem reserved_column_not_kept :
    let columns : List Column := [⟨"_id", .integer⟩]
    let first := (sync catalog 1 "T" columns).alone id []
    (columns.map Column.name).Nodup ∧ first.result = .ok (Table.create "T" []) ∧ first.tables = [Table.create "T" []] ∧
    (sync catalog 1 "T" columns).alone id first.tables =
      { result := .error ((Table.create "T" []).narrowing ⟨"_id", .integer⟩ .text), tables := first.tables, definitions := [] } :=
  ⟨by decide, rfl, rfl, rfl⟩

end Writer

end Relational

end ObjectStore
