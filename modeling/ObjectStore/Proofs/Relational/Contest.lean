import Mathlib.Logic.Function.Basic
import ObjectStore.Proofs.Relational.Catalog

/-!
# Writers that contend for a catalog

Any number of writers bring tables up to date at one catalog, and their steps come in any order. Tables and columns stay once they are there, so what a look-up saw can only have grown by the time of the definition that follows it. The table that a call returns is put together from what it saw and what it defined. The catalog lists all of it, unless the definition was passed over because another writer had made a table without one of the columns, or a column of another type.
-/

namespace ObjectStore

namespace Relational

/-! ### What catalogs list -/

/-- The catalog has a table with every column of this one. -/
def Tables.Lists (tables : Tables) (table : Table) : Prop :=
  ∃ current, tables.get? table.name = some current ∧
    ∀ name type, table.column? name = some type → current.column? name = some type

def Tables.Grows (earlier later : Tables) : Prop :=
  ∀ name found, earlier.get? name = some found → later.Lists found

/-- Whether a definition is passed over for something else than what it asks for. -/
def Access.Clashes (tables : Tables) : Access → Prop
  | lookup _ => False
  | create name columns => ∃ current, tables.get? name = some current ∧
      ∃ column type, (Table.create name columns).column? column = some type ∧ current.column? column ≠ some type
  | add name columns => ∃ current, tables.get? name = some current ∧
      ∃ column ∈ columns, ∃ other, current.column? column.1 = some other ∧ other ≠ column.2

theorem Table.column?_of_missing {table : Table} {columns : Definitions} (h : table.missing columns = columns) {column : String × SqlType}
    (hcolumn : column ∈ columns) : table.column? column.1 = none := by
  have hmissing := List.filter_eq_self.mp h column hcolumn
  simpa [hasColumn, column?, OrderedMap.contains] using hmissing

namespace Tables

variable {tables earlier later last : Tables} {table : Table}

theorem Lists.of_get? (h : tables.get? table.name = some table) : tables.Lists table :=
  ⟨table, h, fun _ _ => id⟩

theorem Grows.refl (tables : Tables) : tables.Grows tables := by
  intro name found hfound
  exact Lists.of_get? (name_of_get? hfound ▸ hfound)

theorem Lists.grows (h : earlier.Lists table) (hgrows : earlier.Grows later) : later.Lists table := by
  obtain ⟨found, hfound, hcolumns⟩ := h
  obtain ⟨current, hcurrent, hmore⟩ := hgrows table.name found hfound
  rw [name_of_get? hfound] at hcurrent
  exact ⟨current, hcurrent, fun name type htype => hmore name type (hcolumns name type htype)⟩

theorem Grows.trans (h : earlier.Grows later) (hlast : later.Grows last) : earlier.Grows last :=
  fun name found hfound => (h name found hfound).grows hlast

theorem grows_after (tables : Tables) (access : Access) : tables.Grows (tables.after access) := by
  intro name found hfound
  obtain rfl := name_of_get? hfound
  cases access with
  | lookup _ => exact .of_get? hfound
  | create other columns =>
    apply Lists.of_get?
    rw [get?_after_create, hfound, Option.some_or]
  | add other columns =>
    refine ⟨_, by rw [get?_after_add, hfound, Option.map_some], fun column type htype => ?_⟩
    split
    · rw [Table.column?_addNew, htype, Option.some_or]
    · exact htype

theorem lists_create_iff {name : String} {columns : Definitions} :
    (tables.after (.create name columns)).Lists (Table.create name columns) ↔ ¬(Access.create name columns).Clashes tables := by
  have hname : (Table.create name columns).name = name := rfl
  simp only [Lists, get?_after_create, hname, if_pos, Access.Clashes]
  cases hcurrent : tables.get? name with
  | none =>
    simp
  | some current =>
    simp

theorem lists_add_iff {columns : Definitions} (hdistinct : OrderedMap.Distinct columns) (hnew : table.missing columns = columns)
    (hlists : tables.Lists table) :
    (tables.after (.add table.name columns)).Lists (table.addColumns columns) ↔ ¬(Access.add table.name columns).Clashes tables := by
  obtain ⟨current, hcurrent, hmore⟩ := hlists
  have hsame : current.name = table.name := name_of_get? hcurrent
  have hafter : (tables.after (.add table.name columns)).get? table.name = some (current.addNew columns) := by
    rw [get?_after_add, hcurrent, Option.map_some, if_pos hsame]
  have hwanted (name : String) : (table.addColumns columns).column? name = (table.column? name).or (OrderedMap.get? columns name) := by
    rw [← Table.column?_addColumns hdistinct, hnew]
  constructor
  · rintro ⟨found, hfound, hall⟩ ⟨old, hold, column, hcolumn, other, hother, hne⟩
    obtain rfl := Option.some.inj (hafter.symm.trans hfound)
    obtain rfl := Option.some.inj (hcurrent.symm.trans hold)
    have hnone := Table.column?_of_missing hnew hcolumn
    have hlisted := hall column.1 column.2 (by rw [hwanted, hnone, Option.none_or, OrderedMap.get?_of_mem hdistinct hcolumn])
    rw [Table.column?_addNew, hother, Option.some_or] at hlisted
    exact hne (Option.some.inj hlisted)
  · intro hclash
    refine ⟨_, hafter, fun name type htype => ?_⟩
    rw [hwanted] at htype
    rw [Table.column?_addNew]
    cases hknown : table.column? name with
    | some known =>
      rw [hknown, Option.some_or] at htype
      rw [hmore name known hknown, Option.some_or, htype]
    | none =>
      rw [hknown, Option.none_or] at htype
      cases hother : current.column? name with
      | none => rw [Option.none_or, htype]
      | some other =>
        by_cases heq : other = type
        · rw [heq, Option.some_or]
        · exact absurd ⟨current, hcurrent, (name, type), OrderedMap.mem_of_get? htype, other, hother, heq⟩ hclash

end Tables

/-! ### The writers -/

/-- What becomes of a step. One that fails may have changed the catalog before it did. -/
inductive Fate where
  | taken
  | failed (failure : Failure) (changed : Bool)

namespace Fate

def answer {α : Type} : Fate → α → Outcome α
  | taken, a => .ok a
  | failed failure _, _ => .error failure

def changes : Fate → Bool
  | taken => true
  | failed _ changed => changed

end Fate

structure Turn (ι : Type) where
  writer : ι
  fate : Fate := .taken

/-- Calls that are under way at one catalog. -/
structure Contest (ι : Type) where
  tables : Tables
  writers : ι → Writer (Outcome Table)
  /-- The tables at the last look-up of each writer. -/
  seen : ι → Tables

namespace Contest

variable {ι : Type} [DecidableEq ι]

def start (tables : Tables) (patience : Nat) (className : ι → String) (columns : ι → List Column) : Contest ι where
  tables
  writers writer := sync Writer.catalog patience (className writer) (columns writer)
  seen _ := tables

def turn (fold : String → String) (contest : Contest ι) (turn : Turn ι) : Contest ι :=
  match contest.writers turn.writer with
  | .done _ => contest
  | .step access next =>
    { tables := if turn.fate.changes then contest.tables.after access else contest.tables
      writers := Function.update contest.writers turn.writer (next (turn.fate.answer (contest.tables.answer fold access)))
      seen := if access.isDefinition then contest.seen else Function.update contest.seen turn.writer contest.tables }

def play (fold : String → String) (contest : Contest ι) (turns : List (Turn ι)) : Contest ι :=
  turns.foldl (turn fold) contest

end Contest

/-! ### What is left of a call -/

/-- What may be left of a call, given the tables that it last saw. A definition asks for what was missing there, and if it succeeds the call ends with the table that this would make. A failure leaves nothing to rely on. -/
inductive Writer.Resolves (fold : String → String) : Tables → Writer (Outcome Table) → Prop where
  | failed {seen : Tables} {failure : Failure} : Resolves fold seen (done (.error failure))
  | current {seen : Tables} {table : Table} (hget : seen.get? table.name = some table) : Resolves fold seen (done (.ok table))
  | looking {seen : Tables} {name : String} {next : Outcome (Option Table) → Writer (Outcome Table)}
      (hfound : ∀ later : Tables, Resolves fold later (next (.ok (later.lookup fold name))))
      (hfailed : ∀ failure later, Resolves fold later (next (.error failure))) : Resolves fold seen (step (.lookup name) next)
  | creating {seen : Tables} {name : String} {columns : Definitions} {next : Outcome Unit → Writer (Outcome Table)}
      (hnone : seen.get? name = none) (hmade : next (.ok ()) = done (.ok (Table.create name columns)))
      (hfailed : ∀ failure later, Resolves fold later (next (.error failure))) : Resolves fold seen (step (.create name columns) next)
  | adding {seen : Tables} {found : Table} {columns : Definitions} {next : Outcome Unit → Writer (Outcome Table)}
      (hget : seen.get? found.name = some found) (hdistinct : OrderedMap.Distinct columns)
      (hnew : found.missing columns = columns) (hmade : next (.ok ()) = done (.ok (found.addColumns columns)))
      (hfailed : ∀ failure later, Resolves fold later (next (.error failure))) : Resolves fold seen (step (.add found.name columns) next)

namespace Writer

variable {fold : String → String} {className : String} {columns : List Column}

theorem bind_done {α : Type} (writer : Writer α) : writer.bind done = writer := by
  induction writer with
  | done result => rfl
  | step access next ih =>
    rw [bind]
    congr 1
    funext answer
    exact ih answer

theorem resolves_andThen_table? {next : Option Table → Writer (Outcome Table)} {k : Outcome Table → Writer (Outcome Table)}
    (hfound : ∀ later : Tables, ((next (later.lookup fold className)).bind k).Resolves fold later)
    (herror : ∀ failure later, (k (.error failure)).Resolves fold later) (seen : Tables) :
    ((andThen (catalog.table? className) next).bind k).Resolves fold seen :=
  .looking hfound fun failure later => herror failure later

/-- One round resolves, if what follows a failure does. -/
theorem resolves_syncOnce_bind (hnames : (columns.map Column.name).Nodup) {k : Outcome Table → Writer (Outcome Table)}
    (hok : ∀ table, k (.ok table) = done (.ok table)) (herror : ∀ failure later, (k (.error failure)).Resolves fold later)
    (seen : Tables) : ((syncOnce catalog className columns).bind k).Resolves fold seen := by
  rw [syncOnce]
  refine resolves_andThen_table? (fun later => ?_) herror seen
  cases hlookup : later.lookup fold className with
  | none => exact .creating (Tables.get?_eq_none_of_lookup hlookup) (hok _) (fun failure later => herror failure later)
  | some table =>
    have hget := Tables.get?_of_lookup hlookup
    dsimp only
    cases table.checkColumns columns with
    | error failure => exact herror failure later
    | ok _ =>
      dsimp only
      split
      · change Resolves fold later (k (.ok table))
        rw [hok]
        exact .current hget
      · have hdistinct : OrderedMap.Distinct (table.missing (wantedDefinitions columns)) :=
          (Table.distinct_wantedDefinitions hnames).sublist (List.filter_sublist.map Prod.fst)
        exact .adding hget hdistinct (Table.missing_missing _ _) (hok _) (fun failure later => herror failure later)

theorem resolves_sync (hnames : (columns.map Column.name).Nodup) (patience : Nat) (seen : Tables) :
    (sync catalog patience className columns).Resolves fold seen := by
  rw [sync, retryRaces]
  generalize (none : Option Nat).getD patience - 1 = remaining
  generalize 0 = attempt
  induction remaining generalizing seen attempt with
  | zero =>
    rw [retryFrom, ← bind_done (syncOnce catalog className columns)]
    exact resolves_syncOnce_bind hnames (fun _ => rfl) (fun _ _ => .failed) seen
  | succ remaining ih =>
    change (Writer.bind _ _).Resolves fold seen
    refine resolves_syncOnce_bind hnames ?_ ?_ seen
    · intro table
      rfl
    · intro failure later
      dsimp only
      split
      · exact ih later (attempt + 1)
      · exact .failed

variable {seen tables : Tables} {access : Access} {k : Outcome access.Answer → Writer (Outcome Table)}

theorem Resolves.after (h : (step access k).Resolves fold seen) (fate : Fate) (tables : Tables) :
    (∃ result, k (fate.answer (tables.answer fold access)) = done result) ∨
      (k (fate.answer (tables.answer fold access))).Resolves fold (if access.isDefinition then seen else tables) := by
  cases h with
  | looking hfound hfailed =>
    cases fate with
    | taken => exact .inr (hfound tables)
    | failed failure _ => exact .inr (hfailed failure tables)
  | creating hnone hmade hfailed =>
    cases fate with
    | taken => exact .inl ⟨_, hmade⟩
    | failed failure _ => exact .inr (hfailed failure seen)
  | adding hget hdistinct hnew hmade hfailed =>
    cases fate with
    | taken => exact .inl ⟨_, hmade⟩
    | failed failure _ => exact .inr (hfailed failure seen)

theorem Resolves.not_ok_of_failed (h : (step access k).Resolves fold seen) (failure : Failure) (table : Table) :
    k (.error failure) ≠ done (.ok table) := by
  intro hended
  have hnever : (k (.error failure)).Resolves fold [] := by
    cases h with
    | looking _ hfailed => exact hfailed failure []
    | creating _ _ hfailed => exact hfailed failure []
    | adding _ _ _ _ hfailed => exact hfailed failure []
  rw [hended] at hnever
  cases hnever with
  | current hget => cases hget

/-- A call that succeeds returns what the catalog then has, unless its definition was passed over. -/
theorem Resolves.lists_iff {table : Table} (h : (step access k).Resolves fold seen) (hgrows : seen.Grows tables)
    (hended : k (.ok (tables.answer fold access)) = done (.ok table)) :
    (tables.after access).Lists table ↔ ¬access.Clashes tables := by
  cases h with
  | @looking _ name next hfound _ =>
    have hcurrent := hfound tables
    have hended : next (.ok (tables.lookup fold name)) = done (.ok table) := hended
    rw [hended] at hcurrent
    cases hcurrent with
    | current hget => exact iff_of_true (.of_get? hget) id
  | @creating _ name columns _ hnone hmade hfailed =>
    obtain rfl : Table.create name columns = table := Except.ok.inj (Writer.done.inj (hmade.symm.trans hended))
    exact Tables.lists_create_iff
  | @adding _ found columns _ hget hdistinct hnew hmade hfailed =>
    obtain rfl : found.addColumns columns = table := Except.ok.inj (Writer.done.inj (hmade.symm.trans hended))
    exact Tables.lists_add_iff hdistinct hnew (hgrows _ _ hget)

/-- A definition asks for nothing that clashes with what the look-up before it saw. -/
theorem Resolves.not_clashes (h : (step access k).Resolves fold seen) : ¬access.Clashes seen := by
  cases h with
  | looking _ _ => exact id
  | creating hnone _ _ =>
    rintro ⟨current, hcurrent, -⟩
    rw [hnone] at hcurrent
    cases hcurrent
  | adding hget _ hnew _ _ =>
    rintro ⟨current, hcurrent, column, hcolumn, other, hother, -⟩
    obtain rfl := Option.some.inj (hget.symm.trans hcurrent)
    rw [Table.column?_of_missing hnew hcolumn] at hother
    cases hother

end Writer

/-! ### Runs -/

namespace Contest

variable {ι : Type} [DecidableEq ι] {fold : String → String} {contest : Contest ι}

/-- Every call that is under way was right about the catalog when it last looked. -/
def Resolves (fold : String → String) (contest : Contest ι) : Prop :=
  ∀ writer, (contest.seen writer).Grows contest.tables ∧
    ((∃ result, contest.writers writer = .done result) ∨ (contest.writers writer).Resolves fold (contest.seen writer))

theorem turn_of_done {next : Turn ι} {result : Outcome Table} (h : contest.writers next.writer = .done result) :
    contest.turn fold next = contest := by
  rw [turn, h]

theorem turn_of_step {next : Turn ι} {access : Access} {k : Outcome access.Answer → Writer (Outcome Table)}
    (h : contest.writers next.writer = .step access k) :
    contest.turn fold next =
      { tables := if next.fate.changes then contest.tables.after access else contest.tables
        writers := Function.update contest.writers next.writer (k (next.fate.answer (contest.tables.answer fold access)))
        seen := if access.isDefinition then contest.seen else Function.update contest.seen next.writer contest.tables } := by
  rw [turn, h]

theorem writers_turn_self {next : Turn ι} {access : Access} {k : Outcome access.Answer → Writer (Outcome Table)}
    (h : contest.writers next.writer = .step access k) :
    (contest.turn fold next).writers next.writer = k (next.fate.answer (contest.tables.answer fold access)) := by
  rw [turn_of_step h]
  exact Function.update_self _ _ _

theorem grows_turn (contest : Contest ι) (next : Turn ι) : contest.tables.Grows (contest.turn fold next).tables := by
  rw [turn]
  split
  · exact .refl _
  · dsimp only
    split
    · exact Tables.grows_after _ _
    · exact .refl _

theorem grows_play (contest : Contest ι) (turns : List (Turn ι)) : contest.tables.Grows (contest.play fold turns).tables := by
  induction turns generalizing contest with
  | nil => exact .refl _
  | cons next rest ih => exact (grows_turn contest next).trans (ih _)

theorem Resolves.turn (h : contest.Resolves fold) (next : Turn ι) : (contest.turn fold next).Resolves fold := by
  intro writer
  obtain ⟨hseen, hleft⟩ := h writer
  have hgrows : contest.tables.Grows (contest.turn fold next).tables := grows_turn contest next
  cases hnext : contest.writers next.writer with
  | done result =>
    rw [turn_of_done hnext]
    exact ⟨hseen, hleft⟩
  | step access k =>
    rw [turn_of_step hnext] at hgrows ⊢
    by_cases hsame : writer = next.writer
    · subst hsame
      rw [hnext] at hleft
      obtain ⟨result, hresult⟩ | hleft := hleft
      · cases hresult
      · have hafter := hleft.after next.fate contest.tables
        dsimp only
        rw [Function.update_self]
        cases hdefinition : access.isDefinition with
        | true =>
          rw [hdefinition, if_pos rfl] at hafter
          exact ⟨hseen.trans hgrows, hafter⟩
        | false =>
          simp only [hdefinition, Bool.false_eq_true, if_false, Function.update_self] at hafter ⊢
          exact ⟨hgrows, hafter⟩
    · dsimp only
      rw [Function.update_of_ne hsame]
      cases access.isDefinition with
      | true => exact ⟨hseen.trans hgrows, hleft⟩
      | false =>
        simp only [Bool.false_eq_true, if_false, Function.update_of_ne hsame]
        exact ⟨hseen.trans hgrows, hleft⟩

theorem Resolves.play (h : contest.Resolves fold) (turns : List (Turn ι)) : (contest.play fold turns).Resolves fold := by
  induction turns generalizing contest with
  | nil => exact h
  | cons next rest ih => exact ih (h.turn next)

omit [DecidableEq ι] in
theorem resolves_start {columns : ι → List Column} (hnames : ∀ writer, ((columns writer).map Column.name).Nodup) (tables : Tables)
    (patience : Nat) (className : ι → String) : (start tables patience className columns).Resolves fold :=
  fun writer => ⟨.refl _, .inr (Writer.resolves_sync (hnames writer) patience tables)⟩

/-- However the steps of the calls are ordered, and whichever of them fail, a call that succeeds returns a table that the catalog lists from then on, unless its own last definition was passed over. That takes a change since its last look-up. -/
theorem table_listed_iff (fold : String → String) (tables : Tables) (patience : Nat) (className : ι → String) {columns : ι → List Column}
    (hnames : ∀ writer, ((columns writer).map Column.name).Nodup) (turns : List (Turn ι)) (last : Turn ι) {access : Access}
    {k : Outcome access.Answer → Writer (Outcome Table)} {table : Table}
    (hpending : ((start tables patience className columns).play fold turns).writers last.writer = .step access k)
    (hended : (((start tables patience className columns).play fold turns).turn fold last).writers last.writer = .done (.ok table)) :
    let earlier := (start tables patience className columns).play fold turns
    let later := earlier.turn fold last
    (later.tables.Lists table ↔ ¬access.Clashes earlier.tables) ∧
    (access.Clashes earlier.tables → earlier.tables ≠ earlier.seen last.writer) ∧
    (later.tables.Lists table → ∀ more, (later.play fold more).tables.Lists table) := by
  intro earlier later
  have hresolves : earlier.Resolves fold := (resolves_start hnames tables patience className).play turns
  obtain ⟨hgrows, ⟨result, hresult⟩ | hleft⟩ := hresolves last.writer
  · cases hpending.symm.trans hresult
  rw [hpending] at hleft
  have hturn : later = _ := turn_of_step hpending
  refine ⟨?_, ?_, ?_⟩
  · obtain ⟨writer, fate⟩ := last
    rw [writers_turn_self hpending] at hended
    cases fate with
    | failed failure _ => exact absurd hended (hleft.not_ok_of_failed failure table)
    | taken =>
      rw [hturn]
      exact hleft.lists_iff hgrows hended
  · intro hclashes hsame
    rw [hsame] at hclashes
    exact hleft.not_clashes hclashes
  · intro hlists more
    exact hlists.grows (grows_play later more)

/-- Two writers that want a column look the table up before either makes it. -/
theorem contested_column_not_listed :
    let columns : Bool → List Column := fun writer => [⟨"n", if writer then .string else .integer⟩]
    let turns : List (Turn Bool) := [{ writer := false }, { writer := true }, { writer := false }, { writer := true }]
    let contest := (start [] 8 (fun _ => "T") columns).play id turns
    (∀ writer, ((columns writer).map Column.name).Nodup) ∧
    contest.writers true = .done (.ok (Table.create "T" [("n", .text)])) ∧
    contest.tables = [Table.create "T" [("n", .bigint)]] ∧
    ¬contest.tables.Lists (Table.create "T" [("n", .text)]) := by
  intro columns turns contest
  have htables : contest.tables = [Table.create "T" [("n", .bigint)]] := rfl
  refine ⟨by decide, rfl, htables, ?_⟩
  rw [htables]
  rintro ⟨current, hcurrent, hcolumns⟩
  obtain rfl := Option.some.inj hcurrent
  exact absurd (hcolumns "n" .text rfl) (by decide)

theorem widened_columns_listed :
    let columns : Bool → List Column := fun writer => [⟨if writer then "a" else "b", .integer⟩]
    let turns : List (Turn Bool) := [{ writer := false }, { writer := true }, { writer := false }]
    let earlier := (start [Table.create "T" []] 8 (fun _ => "T") columns).play id turns
    let later := earlier.turn id { writer := true }
    let table := Table.create "T" [("a", .bigint)]
    (∀ writer, ((columns writer).map Column.name).Nodup) ∧
    (∃ k, earlier.writers true = .step (.add "T" [("a", .bigint)]) k) ∧
    later.writers true = .done (.ok table) ∧
    later.tables = [Table.create "T" [("b", .bigint), ("a", .bigint)]] ∧
    ∀ more, (later.play id more).tables.Lists table := by
  intro columns turns earlier later table
  have hnames : ∀ writer, ((columns writer).map Column.name).Nodup := by decide
  refine ⟨hnames, ⟨_, rfl⟩, rfl, rfl, ?_⟩
  obtain ⟨hlists, -, hmore⟩ := table_listed_iff id [Table.create "T" []] 8 (fun _ => "T") hnames turns { writer := true } rfl rfl
  refine hmore (hlists.mpr ?_)
  rintro ⟨current, hcurrent, column, hcolumn, other, hother, -⟩
  obtain rfl := Option.some.inj hcurrent
  obtain rfl := List.mem_singleton.mp hcolumn
  cases hother

end Contest

end Relational

end ObjectStore
