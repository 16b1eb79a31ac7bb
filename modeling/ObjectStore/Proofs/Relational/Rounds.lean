import ObjectStore.Proofs.Relational.SoleWriter
import ObjectStore.Relational.ServerError

/-!
# Rounds of a writer

A server that a writer has to itself refuses one kind of step: a table that is made must not have a column twice. The answer has the code of a duplicate column, which is also how a lost race shows, so the writer looks again, finds what it found before and is refused again. A table that is there is widened column by column without such an answer. So bringing a table up to date ends with its first round or not at all.
-/

namespace ObjectStore

namespace Relational

/-- The answer to a definition that has a column twice. -/
def ServerError.duplicateColumn (message : String) : ServerError := { code := some "42701", message }

/-- Whether a server makes a step. A table that is there is not made again, whatever its columns. -/
def Tables.admits (tables : Tables) : Access → Bool
  | .create name columns => (tables.get? name).isSome || decide (OrderedMap.Distinct (Table.reserved ++ columns))
  | .lookup _ | .add _ _ => true

namespace Writer

variable {α β : Type} {fold : String → String} {message : String}

/-- The end of a writer at a server, and all its steps. -/
structure Served (α : Type) where
  result : α
  tables : Tables
  accesses : List Access

/-- How often a table was looked up. -/
def Served.rounds (served : Served α) : Nat := served.accesses.countP fun access => !access.isDefinition

/-- The run of a writer at a server that it has to itself. -/
def served (fold : String → String) (message : String) : Writer α → Tables → Served α
  | done result, tables => { result, tables, accesses := [] }
  | step access next, tables =>
    let rest :=
      if tables.admits access then (next (.ok (tables.answer fold access))).served fold message (tables.after access)
      else (next (.error (ServerError.duplicateColumn message).toFailure)).served fold message tables
    { rest with accesses := access :: rest.accesses }

/-! ### Rounds after rounds -/

theorem served_bind (writer : Writer α) (k : α → Writer β) (tables : Tables) :
    (writer >>= k).served fold message tables =
      let first := writer.served fold message tables
      let second := (k first.result).served fold message first.tables
      { second with accesses := first.accesses ++ second.accesses } := by
  induction writer generalizing tables with
  | done result => rfl
  | step access next ih =>
    show (Writer.step access fun answer => next answer >>= k).served fold message tables = _
    simp only [served]
    split
    · rw [ih]
      rfl
    · rw [ih]
      rfl

theorem served_retryFrom_of_settled {races : List Race} {operation : Nat → Writer (Outcome α)} {attempt : Nat} {tables : Tables}
    (h : ∀ failure, ((operation attempt).served fold message tables).result = .error failure → failure.isOneOf races = false)
    (remaining : Nat) :
    (retryFrom races operation remaining attempt).served fold message tables = (operation attempt).served fold message tables := by
  cases remaining with
  | zero => rfl
  | succ remaining =>
    rw [retryFrom, served_bind]
    generalize (operation attempt).served fold message tables = round at h ⊢
    obtain ⟨result, left, accesses⟩ := round
    cases result with
    | ok a => simp [served, pure]
    | error failure => simp [h failure rfl, served, pure]

/-- If every round loses a race and leaves the tables alone, there are as many rounds as are allowed. -/
theorem served_retryFrom_of_stuck {races : List Race} {operation : Nat → Writer (Outcome α)} {tables : Tables} {failure : Failure}
    {accesses : List Access} (hrace : failure.isOneOf races = true)
    (hstuck : ∀ attempt, (operation attempt).served fold message tables = { result := .error failure, tables, accesses })
    (remaining attempt : Nat) :
    (retryFrom races operation remaining attempt).served fold message tables =
      { result := .error failure, tables, accesses := (List.replicate (remaining + 1) accesses).flatten } := by
  induction remaining generalizing attempt with
  | zero =>
    rw [retryFrom, hstuck]
    simp
  | succ remaining ih =>
    rw [retryFrom, served_bind, hstuck]
    simp only [hrace, if_true]
    rw [ih, List.replicate_succ (n := remaining + 1), List.flatten_cons]

end Writer

/-! ### One round -/

theorem keys_wantedDefinitions (columns : List Column) :
    OrderedMap.keys (wantedDefinitions columns) =
      (columns.map Column.name).filter fun name => !FieldName.reserved.contains name := by
  rw [OrderedMap.keys, wantedDefinitions, List.map_map, List.filter_map]
  rfl

/-- A table is made with a column twice only if the list has it twice, since reserved columns are not taken from the list. -/
theorem distinct_reserved_append_iff (columns : List Column) :
    OrderedMap.Distinct (Table.reserved ++ wantedDefinitions columns) ↔ OrderedMap.Distinct (wantedDefinitions columns) := by
  have hreserved : (OrderedMap.keys Table.reserved).Nodup := by
    decide
  have hother : ∀ name ∈ OrderedMap.keys Table.reserved, ∀ listed ∈ OrderedMap.keys (wantedDefinitions columns), name ≠ listed := by
    rintro name hname listed hlisted rfl
    obtain ⟨type, htype⟩ := OrderedMap.mem_keys_iff.mp hlisted
    exact (Table.mem_wantedDefinitions.mp htype).1 hname
  have hkeys : OrderedMap.keys (Table.reserved ++ wantedDefinitions columns) =
      OrderedMap.keys Table.reserved ++ OrderedMap.keys (wantedDefinitions columns) :=
    List.map_append
  rw [OrderedMap.Distinct, hkeys, List.nodup_append]
  exact ⟨fun h => h.2.1, fun h => ⟨hreserved, h, hother⟩⟩

namespace Writer

variable {fold : String → String} {message : String} {tables : Tables} {className : String} {columns : List Column}

theorem served_lookup (fold : String → String) (message : String) (tables : Tables) (className : String) {α : Type}
    (next : Option Table → Writer (Outcome α)) :
    (andThen (catalog.table? className) next).served fold message tables =
      let rest := (next (tables.lookup fold className)).served fold message tables
      { rest with accesses := .lookup className :: rest.accesses } := rfl

theorem served_syncOnce (message : String)
    (h : (tables.lookup fold className).isSome ∨ OrderedMap.Distinct (wantedDefinitions columns)) :
    let round := (syncOnce catalog className columns).alone fold tables
    (syncOnce catalog className columns).served fold message tables =
      { result := round.result, tables := round.tables, accesses := .lookup className :: round.definitions } := by
  rw [syncOnce, served_lookup, alone_andThen_table?]
  cases hfound : tables.lookup fold className with
  | none =>
    have hdistinct : OrderedMap.Distinct (wantedDefinitions columns) := by
      simpa [hfound] using h
    have hadmits : tables.admits (.create className (wantedDefinitions columns)) = true := by
      simp [Tables.admits, distinct_reserved_append_iff, hdistinct]
    dsimp only
    simp only [andThen, catalog, served_bind, alone_bind, served, alone, hadmits, if_true]
    rfl
  | some found =>
    dsimp only
    cases found.checkColumns columns with
    | error failure => rfl
    | ok _ =>
      dsimp only
      split <;> rfl

theorem served_syncOnce_of_repeated (message : String) (hnone : tables.lookup fold className = none)
    (hrepeated : ¬OrderedMap.Distinct (wantedDefinitions columns)) :
    (syncOnce catalog className columns).served fold message tables =
      { result := .error (ServerError.duplicateColumn message).toFailure
        tables
        accesses := [.lookup className, .create className (wantedDefinitions columns)] } := by
  have hadmits : tables.admits (.create className (wantedDefinitions columns)) = false := by
    simp [Tables.admits, Tables.get?_eq_none_of_lookup hnone, distinct_reserved_append_iff, hrepeated]
  rw [syncOnce, served_lookup, hnone]
  dsimp only
  simp only [andThen, catalog, served_bind, served, hadmits, Bool.false_eq_true, if_false]
  rfl

/-! ### All rounds -/

theorem served_sync (message : String) (h : (tables.lookup fold className).isSome ∨ OrderedMap.Distinct (wantedDefinitions columns))
    (patience : Nat) :
    let round := (sync catalog patience className columns).alone fold tables
    (sync catalog patience className columns).served fold message tables =
      { result := round.result, tables := round.tables, accesses := .lookup className :: round.definitions } := by
  have hround := served_syncOnce message h
  dsimp only
  rw [alone_sync_eq, ← hround]
  refine @served_retryFrom_of_settled _ fold message _ (fun _ => syncOnce catalog className columns) 0 tables
    (fun failure hfailure => ?_) _
  rw [hround] at hfailure
  exact (alone_syncOnce fold tables className columns).loses_no_race hfailure

theorem served_sync_of_repeated (message : String) (hnone : tables.lookup fold className = none)
    (hrepeated : ¬OrderedMap.Distinct (wantedDefinitions columns)) (patience : Nat) :
    (sync catalog patience className columns).served fold message tables =
      { result := .error (ServerError.duplicateColumn message).toFailure
        tables
        accesses := (List.replicate (max 1 patience) [.lookup className, .create className (wantedDefinitions columns)]).flatten } := by
  have hrounds : patience - 1 + 1 = max 1 patience := by
    omega
  rw [← hrounds]
  exact served_retryFrom_of_stuck rfl (fun _ => served_syncOnce_of_repeated message hnone hrepeated) (patience - 1) 0

theorem rounds_sync (message : String) (h : (tables.lookup fold className).isSome ∨ OrderedMap.Distinct (wantedDefinitions columns))
    (patience : Nat) : ((sync catalog patience className columns).served fold message tables).rounds = 1 := by
  have hsynced := alone_sync fold tables patience className columns
  rw [served_sync message h patience, Served.rounds]
  dsimp only
  generalize (sync catalog patience className columns).alone fold tables = finish at hsynced
  cases hsynced <;> rfl

theorem rounds_sync_of_repeated (message : String) (hnone : tables.lookup fold className = none)
    (hrepeated : ¬OrderedMap.Distinct (wantedDefinitions columns)) (patience : Nat) :
    ((sync catalog patience className columns).served fold message tables).rounds = max 1 patience := by
  rw [served_sync_of_repeated message hnone hrepeated, Served.rounds, List.countP_flatten, List.map_replicate]
  simp [Access.isDefinition]

/-- Bringing a table up to date ends after finitely many rounds exactly if the table is there or no column but the reserved ones is listed twice. Then it ends with the first round, as if nothing were ever refused. Otherwise every round is refused as the first was, and the tables stay as they are. -/
theorem sync_ends_iff (fold : String → String) (message : String) (tables : Tables) (className : String) (columns : List Column) :
    let served := fun patience => (sync catalog patience className columns).served fold message tables
    let alone := fun patience => (sync catalog patience className columns).alone fold tables
    let ends := (tables.lookup fold className).isSome ∨
      ((columns.map Column.name).filter fun name => !FieldName.reserved.contains name).Nodup
    ((∃ bound, ∀ patience, (served patience).rounds ≤ bound) ↔ ends) ∧
    (ends → ∀ patience, (served patience).rounds = 1 ∧
      served patience = { result := (alone patience).result
                          tables := (alone patience).tables
                          accesses := .lookup className :: (alone patience).definitions }) ∧
    (¬ends → ∀ patience, (served patience).rounds = max 1 patience ∧
      served patience =
        { result := .error (ServerError.duplicateColumn message).toFailure
          tables
          accesses := (List.replicate (max 1 patience) [.lookup className, .create className (wantedDefinitions columns)]).flatten }) := by
  intro served alone ends
  have hends : ends ↔ (tables.lookup fold className).isSome ∨ OrderedMap.Distinct (wantedDefinitions columns) := by
    rw [OrderedMap.Distinct, keys_wantedDefinitions]
  have hrepeated (h : ¬ends) : tables.lookup fold className = none ∧ ¬OrderedMap.Distinct (wantedDefinitions columns) := by
    simpa [hends] using h
  refine ⟨⟨fun hbounded => ?_, fun h => ?_⟩, fun h patience => ?_, fun h patience => ?_⟩
  · -- more patience than the bound makes more rounds
    by_contra h
    obtain ⟨hnone, htwice⟩ := hrepeated h
    obtain ⟨bound, hbound⟩ := hbounded
    have hrounds : (served (bound + 1)).rounds = max 1 (bound + 1) := rounds_sync_of_repeated message hnone htwice (bound + 1)
    have hfew := hbound (bound + 1)
    omega
  · exact ⟨1, fun patience => Nat.le_of_eq (rounds_sync message (hends.mp h) patience)⟩
  · exact ⟨rounds_sync message (hends.mp h) patience, served_sync message (hends.mp h) patience⟩
  · obtain ⟨hnone, htwice⟩ := hrepeated h
    exact ⟨rounds_sync_of_repeated message hnone htwice patience, served_sync_of_repeated message hnone htwice patience⟩

/-- A new table is listed with one column twice. -/
theorem repeated_column_never_ends :
    ¬∃ bound, ∀ patience, ((sync catalog patience "T" [⟨"n", .integer⟩, ⟨"n", .integer⟩]).served id
      "column \"n\" specified more than once" []).rounds ≤ bound := by
  rintro ⟨bound, hbound⟩
  have hrepeated : ¬OrderedMap.Distinct (wantedDefinitions [⟨"n", .integer⟩, ⟨"n", .integer⟩]) := by
    decide
  have hrounds : ((sync catalog (bound + 1) "T" [⟨"n", .integer⟩, ⟨"n", .integer⟩]).served id
      "column \"n\" specified more than once" []).rounds = max 1 (bound + 1) := rounds_sync_of_repeated _ rfl hrepeated _
  have hfew := hbound (bound + 1)
  omega

end Writer

end Relational

end ObjectStore
