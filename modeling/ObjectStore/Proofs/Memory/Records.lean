import ObjectStore.Proofs.Memory.Writes

/-!
# What becomes of the records

An operation of the in-memory store changes the tables in one of few ways: it drops a class, or gives a class other records, which are some of those of before, all of them without some columns, or those of before with one that is new or updated. What holds of the empty store and survives these changes holds in every reachable state, since a transaction that fails puts earlier tables back. The names of the fields of a record are distinct in this way.
-/

namespace ObjectStore

namespace Memory

/-- How the records of one class may change. -/
inductive Rewritten : Table → Table → Prop where
  | reduced {table fewer : Table} (hfewer : fewer.Sublist table) : Rewritten table fewer
  | stripped (table : Table) (columns : List String) :
    Rewritten table (table.map fun entry => (entry.1, columns.foldl OrderedMap.erase entry.2))
  | added (table : Table) (id : String) (stamp : Value) (fields : Fields) :
    Rewritten table (OrderedMap.insert table id (Fields.stamped (.string id) stamp fields))
  | updated {table : Table} {id : String} {before changed : Fields} {updates : Updates} (hbefore : (id, before) ∈ table)
    (hchanged : applyUpdates updates before = .ok changed) (stamp : Value) :
    Rewritten table (OrderedMap.insert table id (OrderedMap.insert changed FieldName.physicalUpdatedAt stamp))

/-- How the tables may change, one class after another. -/
inductive Changed : OrderedMap Table → OrderedMap Table → Prop where
  | same (tables : OrderedMap Table) : Changed tables tables
  | trans {first second third : OrderedMap Table} (hfirst : Changed first second) (hsecond : Changed second third) :
    Changed first third
  | dropped (tables : OrderedMap Table) (className : String) : Changed tables (OrderedMap.erase tables className)
  | rewritten {tables : OrderedMap Table} {className : String} {table : Table}
    (htable : Rewritten ((OrderedMap.get? tables className).getD []) table) :
    Changed tables (OrderedMap.insert tables className table)

/-- Whatever comes of an action, it changes the tables in these ways only. -/
structure Changes {α : Type} (start : Memory) (outcome : Outcome α) (after : Memory) : Prop where
  changed : Changed start.tables after.tables

theorem changes_same {α : Type} {start after : Memory} (outcome : Outcome α) (h : after.tables = start.tables) :
    Changes start outcome after := by
  constructor
  rw [h]
  exact .same start.tables

section Operations

variable {memory : Memory}

theorem changes_rewritten {α : Type} {current after : Memory} {className : String} {table : Table} {outcome : Outcome α}
    (h : Changed memory.tables current.tables) (htable : Rewritten (current.tableOf className) table)
    (hafter : after.tables = OrderedMap.insert current.tables className table) : Changes memory outcome after := by
  constructor
  rw [hafter]
  exact h.trans (.rewritten htable)

theorem ends_openChanged {className : String} {post : Outcome Table → Memory → Prop}
    (hpost : ∀ opened : Memory, Changed memory.tables opened.tables → post (.ok (opened.tableOf className)) opened) :
    Ends (openTable className) memory post := by
  refine ends_openTable (fun table htable => ?_) fun hmissing => ?_
  · rw [← tableOf_of_get? htable]
    exact hpost memory (.same _)
  · have hopened := hpost { memory with tables := OrderedMap.insert memory.tables className [] }
    rw [tableOf_setTable_self rfl] at hopened
    exact hopened (.rewritten (.reduced (List.nil_sublist _)))

/-! ### One attempt -/

theorem changes_insertOnce (className : String) (fields : Fields) : Ends (insertOnce className fields) memory (Changes memory) := by
  refine ends_bind (ends_now.mpr ?_)
  refine ends_bind (ends_drawId.mpr ?_)
  refine ends_bind (ends_openChanged fun opened hopened => ?_)
  refine ends_bind (ends_insertRecord (fun _ => ⟨hopened⟩) fun _ => ends_lift.mpr ?_)
  exact changes_rewritten hopened (.added _ _ _ _) rfl

theorem changes_upsertOnce (query : FindOneQuery) : Ends (upsertOnce query) memory (Changes memory) := by
  refine ends_bind (ends_now.mpr ?_)
  refine ends_bind (ends_openChanged fun opened hopened => ?_)
  refine ends_bind (ends_replaceFirst ?none (fun _ _ => ⟨hopened⟩) ?some)
  case none =>
    refine ends_bind (ends_lift.mpr ?_)
    cases query.upsertSeed with
    | error failure => exact ⟨hopened⟩
    | ok seed =>
      refine ends_bind (ends_seedDrawn fun id drawn _ hdrawn => ?_)
      obtain ⟨hsame, htable⟩ : Changed memory.tables drawn.tables ∧ opened.tableOf query.className = drawn.tableOf query.className := by
        rcases hdrawn with rfl | rfl <;> exact ⟨hopened, rfl⟩
      rw [htable]
      refine ends_bind (ends_insertRecord (fun _ => ⟨hsame⟩) fun _ => ?_)
      exact ends_insertedImage fun _ => changes_rewritten hsame (.added _ _ _ _) rfl
  case some =>
    rintro id before updated _ image hentry hupdated rfl _
    exact ends_returned fun _ => changes_rewritten hopened (.updated hentry hupdated _) rfl

theorem changes_retryRaces {α : Type} {races : List Race} {attempt : Action α}
    (hattempt : ∀ memory : Memory, Ends attempt memory (Changes memory)) (limit : Option Nat) (patience : Nat) :
    Ends (ExceptT.mk (retryRaces races limit patience fun _ => attempt.run)) memory (Changes memory) := by
  refine ends_retryFrom (fun current => Changed memory.tables current.tables) (fun current hcurrent => ?_)
    (fun _ _ hlost => hlost.changed) _ 0 (.same _)
  exact (hattempt current).mono fun _ _ hchanges => ⟨hcurrent.trans hchanges.changed⟩

/-! ### Every operation -/

variable (patience : Nat)

theorem changes_createTable (className : String) : Ends (createTable className) memory (Changes memory) := by
  rw [createTable]
  split
  · exact changes_same _ rfl
  · exact ends_bind (ends_openChanged fun opened hopened => ⟨hopened⟩)

/-- An operation on the table of a class, if it has one, that ends in a state with another table. -/
theorem ends_rewritten {α : Type} {className : String} {next : Option Table → Action α}
    (hmissing : Ends (next none) memory (Changes memory))
    (hthere : Ends (next (some (memory.tableOf className))) memory (Changes memory)) :
    Ends (table? className >>= next) memory (Changes memory) := by
  refine ends_bind (ends_table?.mpr ?_)
  cases htable : OrderedMap.get? memory.tables className with
  | none => exact hmissing
  | some table =>
    obtain rfl := tableOf_of_get? htable
    exact hthere

theorem changes_update (query : FindOneQuery) : Ends (perform patience (.update query)) memory (Changes memory) := by
  have hfailed (failure : Failure) : Changes memory (.error failure : Outcome (Option Object)) memory := changes_same _ rfl
  refine ends_check hfailed fun _ => ends_check hfailed fun _ => ?_
  refine ends_bind (ends_now.mpr (ends_bind (ends_table?.mpr ?_)))
  cases htable : OrderedMap.get? memory.tables query.className with
  | none => exact changes_same _ rfl
  | some table =>
    obtain rfl := tableOf_of_get? htable
    refine ends_bind (ends_replaceFirst (changes_same _ rfl) (fun _ _ => changes_same _ rfl) ?_)
    rintro id before updated _ image hentry hupdated rfl _
    exact ends_returned fun _ => changes_rewritten (.same _) (.updated hentry hupdated _) rfl

theorem changes_delete (query : FindOneQuery) : Ends (perform patience (.delete query)) memory (Changes memory) := by
  refine ends_check (fun _ => changes_same _ rfl) fun _ => ends_rewritten (changes_same _ rfl) ?_
  dsimp only
  cases (selectEntries (memory.tableOf query.className) query.toPhysical.asFind).head? with
  | none => exact changes_same _ rfl
  | some entry =>
    have herased : Rewritten (memory.tableOf query.className) (OrderedMap.erase (memory.tableOf query.className) entry.1) :=
      .reduced (OrderedMap.erase_sublist _ _)
    exact ends_bind (ends_setTable.mpr (ends_returned fun _ => changes_rewritten (.same _) herased rfl))

theorem changes_deleteAll (query : FindQuery) : Ends (perform patience (.deleteAll query)) memory (Changes memory) := by
  refine ends_check (fun _ => changes_same _ rfl) fun _ => ends_rewritten (changes_same _ rfl) ?_
  exact changes_rewritten (.same _) (.reduced (OrderedMap.foldl_erase_sublist _ _)) rfl

theorem changes_insert (className : String) (fields : Fields) :
    Ends (perform patience (.insert className fields)) memory (Changes memory) := by
  rw [perform]
  split
  · exact changes_same _ rfl
  · refine ends_check (fun _ => changes_same _ rfl) fun _ => ?_
    exact changes_retryRaces (fun _ => changes_insertOnce className fields) none patience

theorem changes_perform (operation : Operation) : Ends (perform patience operation) memory (Changes memory) := by
  have hsame {α : Type} (outcome : Outcome α) : Changes memory outcome memory := changes_same outcome rfl
  cases operation with
  | tables => exact hsame _
  | createTable className columns => exact changes_createTable className
  | addColumns className columns => exact changes_createTable className
  | dropTable className => exact ⟨.dropped _ className⟩
  | dropColumns className columns =>
    refine ends_check (fun _ => hsame _) fun _ => ends_rewritten (hsame _) ?_
    exact changes_rewritten (.same _) (.stripped _ columns) rfl
  | addIndex className name keys unique => exact hsame _
  | dropIndex className name => exact hsame _
  | count query => exact ends_check (fun _ => hsame _) fun _ => ends_rewritten (hsame _) (hsame _)
  | find query => exact (ends_find query).mono fun outcome after hafter => changes_same outcome (by rw [hafter])
  | each query visitor =>
    refine ends_bind (ends_caught.mpr ((ends_find query).mono ?_))
    rintro outcome after rfl
    cases outcome <;> exact hsame _
  | first query =>
    exact (ends_first { query with limit := some 1 }).mono fun outcome after hafter => changes_same outcome (by rw [hafter])
  | update query => exact changes_update patience query
  | upsert query =>
    refine ends_check (fun _ => hsame _) fun _ => ends_check (fun _ => hsame _) fun _ => ends_bind (ends_lift.mpr ?_)
    cases query.toPhysical.upsertSeed with
    | error failure => exact hsame _
    | ok seed => exact changes_retryRaces (fun _ => changes_upsertOnce query.toPhysical) _ patience
  | delete query => exact changes_delete patience query
  | deleteAll query => exact changes_deleteAll patience query
  | insert className fields => exact changes_insert patience className fields

end Operations

/-! ### Every run -/

section Run

variable {memory : Memory} (patience : Nat)

theorem changed_bracket (inTransaction : Bool) (options : TransactionOptions) {β : Type} {body : StateM Memory (Outcome Unit × β)}
    (hbody : Changed memory.tables (body.run memory).2.tables) :
    Changed memory.tables (((backend patience).bracket inTransaction options body).run memory).2.tables := by
  cases inTransaction with
  | true => exact hbody
  | false =>
    show Changed memory.tables ((transact body).run memory).2.tables
    rw [run_transact]
    rcases hrun : body.run memory with ⟨⟨outcome, learned⟩, after⟩
    rw [hrun] at hbody
    cases outcome with
    | ok => exact hbody
    | error failure => exact .same memory.tables

theorem changed_run {α : Type} (script : Script α) (inTransaction : Bool) :
    Changed memory.tables ((script.run (backend patience) inTransaction).run memory).2.tables := by
  induction script generalizing memory inTransaction with
  | done result => exact .same memory.tables
  | step operation next ih =>
    have hone : Changes memory ((perform patience operation).run.run memory).1 ((perform patience operation).run.run memory).2 :=
      changes_perform patience operation
    exact hone.changed.trans (ih _ inTransaction)
  | transaction options body next ihBody ihNext =>
    exact (changed_bracket patience inTransaction options (ihBody true)).trans (ihNext _ inTransaction)

/-- The tables of a reachable state came about by changes of empty tables. -/
theorem Reachable.changed {patience : Nat} (h : Reachable patience memory) : Changed [] memory.tables := by
  induction h with
  | empty sources _ => exact .same []
  | run script inTransaction _ ih => exact ih.trans (changed_run _ script inTransaction)

end Run

/-! ### Names of fields -/

/-- Whether the names of the fields are distinct in every record. -/
def NamesDistinct (tables : OrderedMap Table) : Prop :=
  ∀ entry ∈ tables, ∀ stored ∈ entry.2, OrderedMap.Distinct stored.2

theorem Rewritten.namesDistinct {table changed : Table} (h : Rewritten table changed)
    (hdistinct : ∀ stored ∈ table, OrderedMap.Distinct stored.2) : ∀ stored ∈ changed, OrderedMap.Distinct stored.2 := by
  cases h with
  | reduced hfewer => exact fun stored hstored => hdistinct stored (hfewer.subset hstored)
  | stripped columns =>
    intro stored hstored
    obtain ⟨before, hbefore, rfl⟩ := List.mem_map.mp hstored
    exact (hdistinct before hbefore).sublist ((OrderedMap.foldl_erase_sublist columns before.2).map Prod.fst)
  | added id stamp fields =>
    intro stored hstored
    rcases OrderedMap.mem_insert hstored with rfl | hold
    · exact Fields.distinct_stamped _ stamp fields
    · exact hdistinct stored hold
  | updated hbefore hchanged stamp =>
    intro stored hstored
    rcases OrderedMap.mem_insert hstored with rfl | hold
    · have happlied := Updates.distinct_applyTo (applyTo_of_applyUpdates hchanged) (hdistinct _ hbefore)
      exact OrderedMap.distinct_insert happlied FieldName.physicalUpdatedAt stamp
    · exact hdistinct stored hold

theorem Changed.namesDistinct {tables changed : OrderedMap Table} (h : Changed tables changed) (hdistinct : NamesDistinct tables) :
    NamesDistinct changed := by
  induction h with
  | same => exact hdistinct
  | trans _ _ ihFirst ihSecond => exact ihSecond (ihFirst hdistinct)
  | dropped tables className => exact fun entry hentry => hdistinct entry ((OrderedMap.erase_sublist tables className).subset hentry)
  | @rewritten tables className table htable =>
    intro entry hentry
    rcases OrderedMap.mem_insert hentry with rfl | hold
    · refine htable.namesDistinct ?_
      cases hget : OrderedMap.get? tables className with
      | none => exact nofun
      | some old => exact hdistinct _ (OrderedMap.mem_of_get? hget)
    · exact hdistinct entry hold

theorem Reachable.distinct_record {patience : Nat} {memory : Memory} (h : Reachable patience memory) {className id : String}
    {record : Fields} (hrecord : memory.record? className id = some record) : OrderedMap.Distinct record := by
  have hnames : NamesDistinct memory.tables := h.changed.namesDistinct nofun
  cases htable : OrderedMap.get? memory.tables className with
  | none =>
    rw [record?, tableOf_of_missing htable] at hrecord
    cases hrecord
  | some table =>
    rw [record?, tableOf_of_get? htable] at hrecord
    exact hnames _ (OrderedMap.mem_of_get? htable) _ (OrderedMap.mem_of_get? hrecord)

end Memory

end ObjectStore
