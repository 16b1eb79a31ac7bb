import ObjectStore.Proofs.Object
import ObjectStore.Proofs.Relational.Schema

/-!
# What writes send

A write first brings the table of its class up to date and then sends a statement that is made for that table. An update-or-insert sends its update first, and the insertion of its seed only when the update changed nothing. A write that succeeds had its statements answered.
-/

namespace ObjectStore

namespace Relational

/-- Whether a request that sends a statement sends an expected one. -/
def Request.Writes (expected : Trace → Statement → Prop) (past : Trace) : Request → Prop
  | query statement => expected past statement
  | execute _ => False
  | _ => True

/-- Whether every statement that an operation sends is expected. -/
def Dialogue.Sends {α : Type} (expected : Trace → Statement → Prop) (past : Trace) (dialogue : Dialogue α) : Prop :=
  Obeys (Request.Writes expected) (fun _ _ => True) past dialogue

/-- Whether a statement inserts a record of some fields into a table that the server shows and that is up to date for them. -/
def InsertSent (className : String) (fields : Fields) (past : Trace) (statement : Statement) : Prop :=
  (∀ name ∈ OrderedMap.keys fields, FieldName.isReserved name = false) ∧
  ∃ (table : Table) (id : String) (now : Instant), Trace.Shows past table ∧
    Table.Synced className (Column.ofFields fields) table ∧
    statement = Statement.insert table (Fields.stamped (.string id) (.timestamp now) fields) none

/-- Whether a statement is the update of a query for a table that the server shows and that is up to date for some columns. -/
def UpdateSent (className : String) (columns : List Column) (query : FindOneQuery) (past : Trace) (statement : Statement) : Prop :=
  (∀ name ∈ FieldName.reserved, name ∉ OrderedMap.keys query.update) ∧
  ∃ (table : Table) (now : Instant), Trace.Shows past table ∧ Table.Synced className columns table ∧
    Statement.update table query (.timestamp now) = .ok statement

/-- Whether a statement inserts a seed into a table that the server shows and that is up to date for an update-or-insert. The id is that of the seed or a fresh one. -/
def SeedSent (query : FindOneQuery) (seed : Fields) (past : Trace) (statement : Statement) : Prop :=
  (∀ name ∈ FieldName.reserved, name ∉ OrderedMap.keys query.update ∧ name ∉ OrderedMap.keys query.setOnInsert) ∧
  ∃ (table : Table) (id : Value) (now : Instant), Trace.Shows past table ∧
    Table.Synced query.className (upsertColumns seed query.update) table ∧
    (OrderedMap.get? seed FieldName.physicalId = some id ∨ ∃ text, id = .string text) ∧
    statement = Statement.insert table
      (Fields.stamped id (.timestamp now) (OrderedMap.filter (fun name _ => !FieldName.isReserved name) seed)) query.includes

/-- Whether a statement is one of the two of an update-or-insert. -/
def UpsertSent (query : FindOneQuery) (past : Trace) (statement : Statement) : Prop :=
  ∃ seed, query.upsertSeed = .ok seed ∧
    (UpdateSent query.className (upsertColumns seed query.update) query past statement ∨ SeedSent query seed past statement)

/-- Whether an update-or-insert had its update answered, and the insertion of its seed too if no record was updated. -/
def UpsertAnswered (query : FindOneQuery) (past later : Trace) : Prop :=
  ∃ seed statement rows, query.upsertSeed = .ok seed ∧
    UpdateSent query.className (upsertColumns seed query.update) query later statement ∧ Trace.Answers past later statement rows ∧
    (rows.cells = [] → ∃ insertion others, SeedSent query seed later insertion ∧ Trace.Answers past later insertion others)

section Later

variable {past after : Trace} {statement : Statement} (hafter : past <+: after)

include hafter

theorem InsertSent.later {className : String} {fields : Fields} (h : InsertSent className fields past statement) :
    InsertSent className fields after statement := by
  obtain ⟨hnames, table, id, now, hshown, hrest⟩ := h
  exact ⟨hnames, table, id, now, hshown.later hafter, hrest⟩

theorem UpdateSent.later {className : String} {columns : List Column} {query : FindOneQuery}
    (h : UpdateSent className columns query past statement) : UpdateSent className columns query after statement := by
  obtain ⟨hnames, table, now, hshown, hrest⟩ := h
  exact ⟨hnames, table, now, hshown.later hafter, hrest⟩

theorem SeedSent.later {query : FindOneQuery} {seed : Fields} (h : SeedSent query seed past statement) :
    SeedSent query seed after statement := by
  obtain ⟨hnames, table, id, now, hshown, hrest⟩ := h
  exact ⟨hnames, table, id, now, hshown.later hafter, hrest⟩

end Later

theorem not_mem_keys_of_checked {names : List String} (hnames : FieldName.rejectReserved names = .ok ()) {α : Type}
    {map : OrderedMap α} (hmap : OrderedMap.keys map ⊆ names) :
    ∀ name ∈ FieldName.reserved, name ∉ OrderedMap.keys (OrderedMap.mapKeys FieldName.toPhysical map) := by
  intro name hname
  apply not_mem_keys_toPhysical
  · exact fun other hother => FieldName.rejectReserved_eq_ok_iff.mp hnames other (hmap hother)
  · exact FieldName.isReserved_of_mem (List.mem_append_right _ hname)

namespace Dialogue

variable {inTransaction : Bool} {patience : Nat} {past : Trace} {expected : Trace → Statement → Prop}

theorem Obeys.expecting {α : Type} {sent : Trace → Statement → Prop} {wanted : Trace → α → Prop} {dialogue : Dialogue α}
    (h : Obeys (Request.Writes sent) wanted past dialogue)
    (hexpected : ∀ later statement, sent later statement → expected later statement) :
    Obeys (Request.Writes expected) wanted past dialogue := by
  refine h.loosen fun later request hallowed => ?_
  cases request with
  | query statement => exact hexpected later statement hallowed
  | execute statement => exact hallowed
  | now | drawId | lookup name | batch text => trivial

theorem yields_insertRecord {table : Table} {record : Fields} {includes : Option NameSet}
    (hexpected : ∀ later, past <+: later → expected later (Statement.insert table record includes)) :
    Yields (Request.Writes expected)
      (fun later rows => Trace.Answers past later (Statement.insert table record includes) rows) past
      ((session inTransaction patience).insertRecord table record includes) := by
  apply yields_guarded (fun _ _ => trivial)
  · intro later hlater
    refine (yields_rows (hexpected later hlater)).mono fun after outcome _ hanswers rows hrows => ?_
    exact (hanswers rows hrows).widen hlater (List.prefix_refl after)
  · exact fun earlier later rows hlater hanswers => hanswers.widen (List.prefix_refl past) hlater

/-- An insertion that succeeds sent its record and had it answered. -/
theorem yields_insertSent (className : String) (fields : Fields) : Yields (Request.Writes (InsertSent className fields))
    (fun later _ => ∃ statement rows, InsertSent className fields later statement ∧ Trace.Answers past later statement rows)
    past ((session inTransaction patience).insert className fields) := by
  apply yields_checked
  intro hnames
  apply (yields_sync (fun _ _ => trivial) (fun _ _ => trivial) past className (Column.ofFields fields)).andThen
  intro synced table hpast hsynced
  obtain ⟨hsynced, hshown⟩ := hsynced
  apply yields_retryRaces
  intro _ started hstarted
  apply Obeys.bind (obeys_stamp trivial)
  rintro stamped _ hstamped ⟨now, rfl⟩
  apply Obeys.bind (obeys_drawId trivial)
  intro drawn id hdrawn _
  have hbefore := hstarted.trans (hstamped.trans hdrawn)
  have hexpected : InsertSent className fields drawn
      (Statement.insert table (Fields.stamped (.string id) (.timestamp now) fields) none) :=
    ⟨FieldName.rejectReserved_eq_ok_iff.mp hnames, table, id, now, hshown.later hbefore, hsynced, rfl⟩
  apply (yields_insertRecord fun later hlater => hexpected.later hlater).andThen
  intro later rows hlater hanswers
  apply yields_pure
  intro _ _
  exact ⟨_, rows, hexpected.later hlater, hanswers.widen (hpast.trans hbefore) (List.prefix_refl later)⟩

theorem yields_firstObject {className : String} {table : Table} {statement : Statement} (hexpected : expected past statement) :
    Yields (Request.Writes expected)
      (fun later object? => ∃ rows, Trace.Answers past later statement rows ∧ (object? ≠ none → rows.cells ≠ [])) past
      ((session inTransaction patience).firstObject className table statement) := by
  apply (yields_rows hexpected).andThen
  intro later rows _ hanswers
  apply yields_pure
  intro object? hobject
  refine ⟨rows, hanswers, fun hsome hnone => ?_⟩
  rw [Rows.firstObject, hnone] at hobject
  exact hsome (Except.ok.inj hobject).symm

theorem yields_withTable {α : Type} {className : String} {missing : α} {wanted : Trace → α → Prop}
    {next : Table → Dialogue (Outcome α)} (hmissing : ∀ later, wanted later missing)
    (hnext : ∀ later table, past <+: later → Trace.Shows later table →
      Yields (Request.Writes expected) wanted later (next table)) :
    Yields (Request.Writes expected) wanted past ((session inTransaction patience).withTable className missing next) := by
  have htable : Yields (Request.Writes expected) (fun later found? => ∀ table, found? = some table → Trace.Shows later table) past
      ((session inTransaction patience).table? className) := by
    rw [Session.table?]
    split
    · exact yields_error _
    · exact yields_table? (fun _ _ => trivial) past className
  apply htable.andThen
  intro looked found? hlooked hshown
  cases found? with
  | none => exact yields_ok (hmissing looked)
  | some table => exact hnext looked table hlooked (hshown table rfl)

/-- An update that finds a record sent its statement and had it answered. -/
theorem yields_updateSent (query : FindOneQuery) :
    Yields (Request.Writes fun later statement =>
        ∃ name, UpdateSent name (Column.ofUpdates query.toPhysical.update) query.toPhysical later statement)
      (fun later object? => object? ≠ none → ∃ statement rows,
        (∃ name, UpdateSent name (Column.ofUpdates query.toPhysical.update) query.toPhysical later statement) ∧
          Trace.Answers past later statement rows)
      past ((session inTransaction patience).update query) := by
  apply yields_checked
  intro _
  apply yields_checked
  intro hnames
  have hplain := not_mem_keys_of_checked hnames (List.Subset.refl (OrderedMap.keys query.update))
  apply yields_withTable fun _ hnone => absurd rfl hnone
  intro looked found hlooked hfound
  apply (yields_extend (fun _ _ => trivial) (fun _ _ => trivial) hfound (Column.ofUpdates query.toPhysical.update)).andThen
  intro widened table hwidened hsynced
  obtain ⟨hsynced, hshown⟩ := hsynced
  apply Obeys.bind (obeys_stamp trivial)
  rintro stamped _ hstamped ⟨now, rfl⟩
  cases hstatement : Statement.update table query.toPhysical (.timestamp now) with
  | error failure => exact yields_error failure
  | ok statement =>
    have hexpected : UpdateSent found.name (Column.ofUpdates query.toPhysical.update) query.toPhysical stamped statement :=
      ⟨hplain, table, now, hshown.later hstamped, hsynced, hstatement⟩
    refine Obeys.mono (yields_firstObject ⟨_, hexpected⟩) fun later outcome hlater hwanted object? hobject _ => ?_
    obtain ⟨rows, hanswers, -⟩ := hwanted object? hobject
    have hbefore := hlooked.trans (hwidened.trans hstamped)
    exact ⟨statement, rows, ⟨_, hexpected.later hlater⟩, hanswers.widen hbefore (List.prefix_refl later)⟩

section Upsert

/-- What an upsert answers once it has inserted a record. -/
def insertedAnswer (query : FindOneQuery) (table : Table) (rows : Rows) : Dialogue (Outcome (Option Object)) :=
  match query.returning with
  | .before => pure (.ok none)
  | .after => pure (rows.firstObject query.className table)

variable {query : FindOneQuery} {seed : Fields} {table : Table} (hseed : query.upsertSeed = .ok seed)
  (hnames : ∀ name ∈ FieldName.reserved, name ∉ OrderedMap.keys query.update ∧ name ∉ OrderedMap.keys query.setOnInsert)
  (hsynced : Table.Synced query.className (upsertColumns seed query.update) table)

include hseed hnames hsynced

theorem yields_insertSeed (hshown : Trace.Shows past table) (now : Instant) : Yields (Request.Writes (UpsertSent query))
    (fun later _ => ∃ statement rows, SeedSent query seed later statement ∧ Trace.Answers past later statement rows) past
      ((session inTransaction patience).insertSeed table query seed (.timestamp now)) := by
  have hrecord : ∀ drawn id, past <+: drawn → (OrderedMap.get? seed FieldName.physicalId = some id ∨ ∃ text, id = .string text) →
      Yields (Request.Writes (UpsertSent query))
        (fun later _ => ∃ statement rows, SeedSent query seed later statement ∧ Trace.Answers past later statement rows) drawn
        (andThen ((session inTransaction patience).insertRecord table
          (Fields.stamped id (.timestamp now) (OrderedMap.filter (fun name _ => !FieldName.isReserved name) seed))
          query.includes) (insertedAnswer query table)) := by
    intro drawn id hdrawn hsource
    have hexpected : SeedSent query seed drawn (Statement.insert table
        (Fields.stamped id (.timestamp now) (OrderedMap.filter (fun name _ => !FieldName.isReserved name) seed)) query.includes) :=
      ⟨hnames, table, id, now, hshown.later hdrawn, hsynced, hsource, rfl⟩
    refine (yields_insertRecord fun later hlater => ⟨seed, hseed, Or.inr (hexpected.later hlater)⟩).andThen ?_
    intro later rows hlater hwanted
    have hsent := hwanted.widen hdrawn (List.prefix_refl later)
    rw [insertedAnswer]
    cases query.returning with
    | before => exact yields_ok ⟨_, _, hexpected.later hlater, hsent⟩
    | after => exact yields_pure fun _ _ => ⟨_, _, hexpected.later hlater, hsent⟩
  rw [Session.insertSeed]
  cases hid : OrderedMap.get? seed FieldName.physicalId with
  | some id => exact hrecord past id (List.prefix_refl past) (Or.inl hid)
  | none =>
    have hdrawn : Obeys (Request.Writes (UpsertSent query)) (fun _ id => ∃ text, id = .string text) past
        (Value.string <$> connection.drawId) :=
      Obeys.map ((obeys_drawId trivial).mono fun _ text _ _ => ⟨text, rfl⟩)
    apply hdrawn.bind
    intro drawn id hlater hfresh
    exact hrecord drawn id hlater (Or.inr hfresh)

theorem yields_upsertOnce (hshown : Trace.Shows past table) : Yields (Request.Writes (UpsertSent query))
    (fun later _ => UpsertAnswered query past later) past ((session inTransaction patience).upsertOnce table query seed) := by
  apply Obeys.bind (obeys_stamp trivial)
  rintro stamped _ hstamped ⟨now, rfl⟩
  dsimp only
  cases hstatement : Statement.update table query (.timestamp now) with
  | error failure => exact yields_error failure
  | ok statement =>
    have hexpected : UpdateSent query.className (upsertColumns seed query.update) query stamped statement :=
      ⟨fun name hname => (hnames name hname).1, table, now, hshown.later hstamped, hsynced, hstatement⟩
    have hupdate : UpsertSent query stamped statement := ⟨seed, hseed, Or.inl hexpected⟩
    apply (yields_firstObject hupdate).andThen
    rintro updated object? hupdated ⟨rows, hanswers, hfound⟩
    cases object? with
    | some object =>
      refine yields_ok ⟨seed, statement, rows, hseed, hexpected.later hupdated, ?_, fun hnone => ?_⟩
      · exact hanswers.widen hstamped (List.prefix_refl updated)
      · exact absurd hnone (hfound nofun)
    | none =>
      refine Obeys.mono (yields_insertSeed hseed hnames hsynced (hshown.later (hstamped.trans hupdated)) now) ?_
      intro later outcome hlater hwanted object? hobject
      obtain ⟨insertion, others, hsent, hinserted⟩ := hwanted object? hobject
      refine ⟨seed, statement, rows, hseed, hexpected.later (hupdated.trans hlater), hanswers.widen hstamped hlater, fun _ => ?_⟩
      exact ⟨insertion, others, hsent, hinserted.widen (hstamped.trans hupdated) (List.prefix_refl later)⟩

end Upsert

/-- An update-or-insert that succeeds had its statements answered. -/
theorem yields_upsertSent (query : FindOneQuery) : Yields (Request.Writes (UpsertSent query.toPhysical))
    (fun later _ => UpsertAnswered query.toPhysical past later) past ((session inTransaction patience).upsert query) := by
  apply yields_checked
  intro _
  apply yields_checked
  intro hchecked
  have hnames : ∀ name ∈ FieldName.reserved,
      name ∉ OrderedMap.keys query.toPhysical.update ∧ name ∉ OrderedMap.keys query.toPhysical.setOnInsert :=
    fun name hname => ⟨not_mem_keys_of_checked hchecked (List.subset_append_left _ _) name hname,
      not_mem_keys_of_checked hchecked (List.subset_append_right _ _) name hname⟩
  dsimp only
  cases hseed : query.toPhysical.upsertSeed with
  | error failure => exact yields_error failure
  | ok seed =>
    apply (yields_sync (fun _ _ => trivial) (fun _ _ => trivial) past query.className
      (upsertColumns seed query.toPhysical.update)).andThen
    intro synced table hpast hsynced
    obtain ⟨hsynced, hshown⟩ := hsynced
    apply yields_retryRaces
    intro _ started hstarted
    refine (yields_upsertOnce hseed hnames hsynced (hshown.later hstarted)).mono fun later outcome _ hwanted object? hobject => ?_
    obtain ⟨seed, statement, rows, hseed, hsent, hanswers, hinserted⟩ := hwanted object? hobject
    have hbefore := hpast.trans hstarted
    refine ⟨seed, statement, rows, hseed, hsent, hanswers.widen hbefore (List.prefix_refl later), fun hnone => ?_⟩
    obtain ⟨insertion, others, hseedSent, hanswered⟩ := hinserted hnone
    exact ⟨insertion, others, hseedSent, hanswered.widen hbefore (List.prefix_refl later)⟩

end Dialogue

end Relational

end ObjectStore
