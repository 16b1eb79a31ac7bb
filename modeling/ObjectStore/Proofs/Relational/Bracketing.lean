import ObjectStore.Proofs.Outcome
import ObjectStore.Proofs.Relational.Course
import ObjectStore.Proofs.Retry

/-!
# Brackets of transactions

Whatever a server answers, a session keeps its brackets in order. Every operation speaks in a way that suits where it runs, and this carries over to scripts of operations. An attempt at a transaction opens it, speaks for the body, and closes it as the body ended. Nothing else opens or closes a transaction.
-/

namespace ObjectStore

namespace Relational

/-! ### What the statements open with -/

namespace Sql

theorem Opens.intercalate {opening text : String} (h : Opens opening text) (separator : String) (texts : List String) :
    Opens opening (String.intercalate separator (text :: texts)) := by
  cases texts with
  | nil =>
    rw [String.intercalate_singleton]
    exact h
  | cons next rest =>
    rw [String.intercalate_cons_cons]
    exact (h.append separator).append _

theorem afterQuotes_doubled (name : List Char) {rest : List Char} (hrest : rest.head? ≠ some '"') :
    afterQuotes (name.flatMap (fun c => if c = '"' then ['"', '"'] else [c]) ++ '"' :: rest) = rest := by
  induction name with
  | nil =>
    cases rest with
    | nil => rfl
    | cons c rest =>
      have hc : c ≠ '"' := by simpa using hrest
      simp [afterQuotes, hc]
  | cons c name ih =>
    by_cases hquote : c = '"'
    · subst hquote
      exact ih
    · simpa [afterQuotes, hquote] using ih

/-- To drop columns is not to add one. -/
theorem isContested_dropping (name : String) {drops : String} (h : Opens "DROP COLUMN IF EXISTS " drops) :
    isContested ("ALTER TABLE " ++ quoteName name ++ " " ++ drops) = false := by
  obtain ⟨rest, rfl⟩ := h
  have htext : ("ALTER TABLE " ++ quoteName name ++ " " ++ ("DROP COLUMN IF EXISTS " ++ rest)).toList =
      "ALTER TABLE \"".toList ++ (name.toList.flatMap (fun c => if c = '"' then ['"', '"'] else [c]) ++
        '"' :: (" DROP COLUMN IF EXISTS ".toList ++ rest.toList)) := by
    simp [String.toList_append, toList_quoteName]
  have hafter : afterQuotes (("ALTER TABLE " ++ quoteName name ++ " " ++ ("DROP COLUMN IF EXISTS " ++ rest)).toList.drop 13) =
      " DROP COLUMN IF EXISTS ".toList ++ rest.toList := by
    rw [htext]
    exact afterQuotes_doubled name.toList (by simp)
  have hbegins : begins "ALTER TABLE \"" ("ALTER TABLE " ++ quoteName name ++ " " ++ ("DROP COLUMN IF EXISTS " ++ rest)) = true := by
    rw [begins, htext]
    exact List.isPrefixOf_iff_prefix.mpr (List.prefix_append _ _)
  rw [isContested, hafter, hbegins]
  simp [List.isPrefixOf]

end Sql

namespace Statement

variable {table : Table}

theorem opens_ofPieces (opening : String) (pieces : Pieces) : Sql.Opens opening (ofPieces (.sql opening :: pieces)).text :=
  ⟨String.join (pieces.texts 0), String.join_cons⟩

theorem opens_select (table : Table) (query : FindQuery) : Sql.Opens "SELECT " (select table query).text := opens_ofPieces _ _

theorem opens_count (table : Table) (query : FindQuery) : Sql.Opens "SELECT COUNT(*) FROM (SELECT 1 FROM " (count table query).text :=
  opens_ofPieces _ _

theorem opens_update {query : FindOneQuery} {now : Value} {statement : Statement} (h : update table query now = .ok statement) :
    Sql.Opens "WITH target AS (SELECT " statement.text := by
  obtain ⟨assignments, -, hstatement⟩ := Outcome.bind_eq_ok_iff.mp h
  rw [← Except.ok.inj hstatement]
  exact opens_ofPieces _ _

theorem opens_delete (table : Table) (query : FindOneQuery) : Sql.Opens "WITH target AS (SELECT " (delete table query).text :=
  opens_ofPieces _ _

theorem opens_deleteAll (table : Table) (query : FindQuery) : Sql.Opens "DELETE FROM " (deleteAll table query).text := opens_ofPieces _ _

theorem opens_insert (table : Table) (record : Fields) (includes : Option NameSet) :
    Sql.Opens "INSERT INTO " (insert table record includes).text :=
  opens_ofPieces _ _

end Statement

namespace Request

variable {inTransaction : Bool} {request : Request}

theorem sends_of_text {text : String} (h : request.text? = some text) (kind : String → Bool) : request.sends kind = kind text := by
  rw [sends, h, Option.any_some]

theorem plain_of_silent (h : request.text? = none) : request.Plain inTransaction := by
  have hsends (kind : String → Bool) : request.sends kind = false := by rw [sends, h, Option.any_none]
  exact ⟨hsends _, hsends _, fun _ => hsends _⟩

/-- What opens the statements that may stand by themselves also in a transaction. -/
def standalone : List String :=
  ["SELECT ", "SELECT COUNT(*) FROM (SELECT 1 FROM ", "WITH target AS (SELECT ", "DELETE FROM ", "DROP TABLE IF EXISTS ",
    "DROP INDEX IF EXISTS ", "CREATE INDEX IF NOT EXISTS ", "CREATE UNIQUE INDEX IF NOT EXISTS "]

theorem plain_of_standalone {opening text : String} (htext : request.text? = some text) (h : Sql.Opens opening text)
    (hopening : opening ∈ standalone) : request.Plain inTransaction := by
  have hbracket : ∀ opening ∈ standalone, Sql.apart ["BEGIN", "COMMIT", "ROLLBACK"] opening = true := by decide
  have hsavepoint : ∀ opening ∈ standalone, Sql.apart ["SAVEPOINT", "RELEASE", "ROLLBACK TO"] opening = true := by decide
  have hcontested : ∀ opening ∈ standalone, Sql.apart ["CREATE TABLE", "INSERT", "ALTER TABLE \""] opening = true := by decide
  refine ⟨?_, ?_, fun _ => ?_⟩ <;> rw [sends_of_text htext]
  · exact h.isBracket (hbracket opening hopening)
  · exact h.isSavepoint (hsavepoint opening hopening)
  · exact h.isContested (hcontested opening hopening)

/-- What opens the statements that make or change a table or make a record. -/
def changing : List String := ["CREATE TABLE IF NOT EXISTS ", "ALTER TABLE ", "INSERT INTO "]

theorem plain_of_changing {opening text : String} (htext : request.text? = some text) (h : Sql.Opens opening text)
    (hopening : opening ∈ changing) (hcontested : inTransaction = true → Sql.isContested text = false) : request.Plain inTransaction := by
  have hbracket : ∀ opening ∈ changing, Sql.apart ["BEGIN", "COMMIT", "ROLLBACK"] opening = true := by decide
  have hsavepoint : ∀ opening ∈ changing, Sql.apart ["SAVEPOINT", "RELEASE", "ROLLBACK TO"] opening = true := by decide
  refine ⟨?_, ?_, ?_⟩ <;> rw [sends_of_text htext]
  · exact h.isBracket (hbracket opening hopening)
  · exact h.isSavepoint (hsavepoint opening hopening)
  · exact hcontested

end Request

/-! ### Operations -/

namespace Dialogue

variable {α : Type} {inTransaction : Bool} {patience : Nat}

theorem speaks_run {opening text : String} (h : Sql.Opens opening text) (hopening : opening ∈ Request.standalone) :
    Speaks inTransaction (connection.run text) :=
  speaks_sending (speaks_ask (Request.plain_of_standalone rfl h hopening))

theorem speaks_rows {statement : Statement} {opening : String} (h : Sql.Opens opening statement.text) (hopening : opening ∈ Request.standalone) :
    Speaks inTransaction (connection.rows statement) :=
  speaks_sending (speaks_ask (Request.plain_of_standalone rfl h hopening))

theorem speaks_affected {statement : Statement} {opening : String} (h : Sql.Opens opening statement.text)
    (hopening : opening ∈ Request.standalone) : Speaks inTransaction (connection.affected statement) :=
  speaks_sending (speaks_ask (Request.plain_of_standalone rfl h hopening))

theorem speaks_stamp : Speaks inTransaction (session inTransaction patience).stamp :=
  (speaks_ask (Request.plain_of_silent rfl)).map _

theorem speaks_drawId : Speaks inTransaction connection.drawId := speaks_ask (Request.plain_of_silent rfl)

theorem speaks_catalogTable (name : String) : Speaks inTransaction ((session inTransaction patience).catalog.table? name) :=
  (speaks_ask (Request.plain_of_silent rfl)).map _

theorem speaks_table (className : String) : Speaks inTransaction ((session inTransaction patience).table? className) := by
  rw [Session.table?]
  split
  · exact speaks_pure _
  · exact speaks_catalogTable className

theorem speaks_withTable {className : String} {missing : α} {next : Table → Dialogue (Outcome α)}
    (h : ∀ table, Speaks inTransaction (next table)) :
    Speaks inTransaction ((session inTransaction patience).withTable className missing next) := by
  apply (speaks_table className).andThen
  rintro (_ | table)
  · exact speaks_pure _
  · exact h table

/-- A definition is guarded by the savepoint of the schema. -/
theorem speaks_definition {opening text : String} (h : Sql.Opens opening text) (hopening : opening ∈ Request.changing) :
    Speaks inTransaction ((session inTransaction patience).guarded schemaSavepoint (connection.run text)) :=
  speaks_guarded (by decide) (single_run (Request.plain_of_changing rfl h hopening nofun))

theorem speaks_createTable (name : String) (columns : Definitions) :
    Speaks inTransaction ((session inTransaction patience).catalog.createTable name columns) := by
  have hopens : Sql.Opens "CREATE TABLE IF NOT EXISTS " (createTableText name columns) :=
    (((Sql.opens_self _ _).append _).append _).append _
  exact speaks_definition hopens (by decide)

theorem speaks_addColumns (name : String) (columns : Definitions) :
    Speaks inTransaction ((session inTransaction patience).catalog.addColumns name columns) := by
  have hopens : Sql.Opens "ALTER TABLE " (addColumnsText name columns) := ((Sql.opens_self _ _).append _).append _
  exact speaks_definition hopens (by decide)

theorem speaks_relationalSync (className : String) (columns : List Column) :
    Speaks inTransaction (Relational.sync (session inTransaction patience).catalog patience className columns) := by
  apply speaks_retryRaces
  intro _
  apply (speaks_catalogTable className).andThen
  rintro (_ | table)
  · exact (speaks_createTable _ _).andThen fun _ => speaks_pure _
  · dsimp only
    split
    · exact speaks_pure _
    · split
      · exact speaks_pure _
      · exact (speaks_addColumns _ _).andThen fun _ => speaks_pure _

theorem speaks_sync (className : String) (columns : List Column) :
    Speaks inTransaction ((session inTransaction patience).sync className columns) := by
  rw [Session.sync]
  split
  · exact speaks_pure _
  · exact speaks_relationalSync className columns

theorem speaks_extend (table : Table) (columns : List Column) :
    Speaks inTransaction (extend (session inTransaction patience).catalog patience table columns) := by
  rw [extend]
  split
  · exact speaks_pure _
  · exact speaks_relationalSync table.name columns

theorem speaks_tables : Speaks inTransaction (session inTransaction patience).tables := by
  have hopens : Sql.Opens "SELECT " listTables.text :=
    (Sql.opens_of_begins (by decide : Sql.begins "SELECT " "SELECT table_name::text FROM information_schema.tables " = true)).append _
  exact (speaks_rows hopens (by decide)).andThen fun _ => speaks_pure _

theorem speaks_dropTable (className : String) : Speaks inTransaction ((session inTransaction patience).dropTable className) :=
  speaks_withTable fun table => speaks_run (Sql.opens_self "DROP TABLE IF EXISTS " _) (by decide)

theorem speaks_dropColumns (className : String) (columns : List String) :
    Speaks inTransaction ((session inTransaction patience).dropColumns className columns) := by
  apply speaks_checked
  cases columns with
  | nil => exact speaks_pure _
  | cons column rest =>
    apply speaks_withTable
    intro table
    have hopens : Sql.Opens "ALTER TABLE " ("ALTER TABLE " ++ quoteName table.name ++ " " ++ String.intercalate ", "
        ((column :: rest).map fun column => "DROP COLUMN IF EXISTS " ++ quoteName column)) :=
      ((Sql.opens_self _ _).append _).append _
    have hdrops : Sql.Opens "DROP COLUMN IF EXISTS " (String.intercalate ", "
        ((column :: rest).map fun column => "DROP COLUMN IF EXISTS " ++ quoteName column)) :=
      (Sql.opens_self _ _).intercalate ", " _
    exact speaks_sending (speaks_ask (Request.plain_of_changing rfl hopens (by decide) fun _ => Sql.isContested_dropping table.name hdrops))

theorem speaks_dropIndex (className name : String) : Speaks inTransaction ((session inTransaction patience).dropIndex className name) := by
  rw [Session.dropIndex]
  split
  · exact speaks_pure _
  · exact speaks_run (Sql.opens_self "DROP INDEX IF EXISTS " _) (by decide)

theorem Sql.opens_createIndex (unique : Bool) :
    Sql.Opens (if unique then "CREATE UNIQUE INDEX IF NOT EXISTS " else "CREATE INDEX IF NOT EXISTS ")
      ("CREATE " ++ (if unique then "UNIQUE " else "") ++ "INDEX IF NOT EXISTS ") := by
  cases unique <;> exact ⟨"", by decide⟩

theorem speaks_addIndex (className name : String) (keys : SortKeys) (unique : Bool) :
    Speaks inTransaction ((session inTransaction patience).addIndex className name keys unique) := by
  rw [Session.addIndex]
  split
  · exact speaks_pure _
  · apply (speaks_sync className []).andThen
    intro table
    dsimp only
    split
    · exact speaks_pure _
    · next items _ =>
      have hopens := (((((Sql.opens_createIndex unique).append (quoteName name)).append " ON ").append (quoteName table.name)).append
        " (").append (String.intercalate ", " items) |>.append ")"
      have hopening : (if unique then "CREATE UNIQUE INDEX IF NOT EXISTS " else "CREATE INDEX IF NOT EXISTS ") ∈ Request.standalone := by
        cases unique <;> decide
      exact speaks_run hopens hopening

theorem speaks_count (query : FindQuery) : Speaks inTransaction ((session inTransaction patience).count query) := by
  apply speaks_checked
  apply speaks_withTable
  intro table
  exact (speaks_rows (Statement.opens_count table _) (by decide)).andThen fun _ => speaks_pure _

theorem speaks_selectRows (query : FindQuery) : Speaks inTransaction ((session inTransaction patience).selectRows query) := by
  apply speaks_checked
  apply speaks_withTable
  intro table
  exact (speaks_rows (Statement.opens_select table _) (by decide)).andThen fun _ => speaks_pure _

theorem speaks_find (query : FindQuery) : Speaks inTransaction ((session inTransaction patience).find query) := by
  apply (speaks_selectRows query).andThen
  rintro (_ | ⟨table, rows⟩) <;> exact speaks_pure _

theorem speaks_each (query : FindQuery) (visitor : Visitor) :
    Speaks inTransaction ((session inTransaction patience).each query visitor) := by
  apply (speaks_selectRows query).bind
  rintro (failure | _ | ⟨table, rows⟩) <;> exact speaks_pure _

theorem speaks_first (query : FindQuery) : Speaks inTransaction ((session inTransaction patience).first query) :=
  (speaks_find _).andThen fun _ => speaks_pure _

theorem speaks_firstObject {statement : Statement} {opening : String} (h : Sql.Opens opening statement.text)
    (hopening : opening ∈ Request.standalone) (className : String) (table : Table) :
    Speaks inTransaction ((session inTransaction patience).firstObject className table statement) :=
  (speaks_rows h hopening).andThen fun _ => speaks_pure _

theorem speaks_update (query : FindOneQuery) : Speaks inTransaction ((session inTransaction patience).update query) := by
  apply speaks_checked
  apply speaks_checked
  apply speaks_withTable
  intro table
  apply (speaks_extend table _).andThen
  intro widened
  apply speaks_stamp.bind
  intro now
  split
  · exact speaks_pure _
  · next statement hstatement => exact speaks_firstObject (Statement.opens_update hstatement) (by decide) _ _

/-- An insertion is guarded by the savepoint of writes. -/
theorem speaks_insertRecord (table : Table) (record : Fields) (includes : Option NameSet) :
    Speaks inTransaction ((session inTransaction patience).insertRecord table record includes) := by
  have hplain : (Request.query (Statement.insert table record includes)).Plain false :=
    Request.plain_of_changing rfl (Statement.opens_insert table record includes) (by decide) nofun
  exact speaks_guarded (by decide) (single_rows hplain)

theorem speaks_insert (className : String) (fields : Fields) :
    Speaks inTransaction ((session inTransaction patience).insert className fields) := by
  apply speaks_checked
  apply (speaks_sync className _).andThen
  intro table
  apply speaks_retryRaces
  intro _
  apply speaks_stamp.bind
  intro now
  apply speaks_drawId.bind
  intro id
  exact (speaks_insertRecord table _ _).andThen fun _ => speaks_pure _

theorem speaks_insertSeed (table : Table) (query : FindOneQuery) (seed : Fields) (now : Value) :
    Speaks inTransaction ((session inTransaction patience).insertSeed table query seed now) := by
  rw [Session.insertSeed]
  split
  · refine (speaks_pure _).bind fun id => (speaks_insertRecord table _ _).andThen fun rows => ?_
    split <;> exact speaks_pure _
  · refine (speaks_drawId.map _).bind fun id => (speaks_insertRecord table _ _).andThen fun rows => ?_
    split <;> exact speaks_pure _

theorem speaks_upsert (query : FindOneQuery) : Speaks inTransaction ((session inTransaction patience).upsert query) := by
  apply speaks_checked
  apply speaks_checked
  dsimp only
  split
  · exact speaks_pure _
  · next seed _ =>
    apply (speaks_sync _ _).andThen
    intro table
    apply speaks_retryRaces
    intro _
    apply speaks_stamp.bind
    intro now
    split
    · exact speaks_pure _
    · next statement hstatement =>
      apply (speaks_firstObject (Statement.opens_update hstatement) (by decide) _ _).andThen
      rintro (_ | object)
      · exact speaks_insertSeed table _ seed now
      · exact speaks_pure _

theorem speaks_delete (query : FindOneQuery) : Speaks inTransaction ((session inTransaction patience).delete query) := by
  apply speaks_checked
  apply speaks_withTable
  intro table
  exact speaks_firstObject (Statement.opens_delete table _) (by decide) _ _

theorem speaks_deleteAll (query : FindQuery) : Speaks inTransaction ((session inTransaction patience).deleteAll query) := by
  apply speaks_checked
  apply speaks_withTable
  intro table
  exact speaks_affected (Statement.opens_deleteAll table _) (by decide)

theorem speaks_perform (operation : Operation) : Speaks inTransaction ((session inTransaction patience).perform operation) := by
  cases operation with
  | tables => exact speaks_tables
  | createTable className columns => exact (speaks_sync className columns).andThen fun _ => speaks_pure _
  | addColumns className columns => exact (speaks_sync className columns).andThen fun _ => speaks_pure _
  | dropTable className => exact speaks_dropTable className
  | dropColumns className columns => exact speaks_dropColumns className columns
  | addIndex className name keys unique => exact speaks_addIndex className name keys unique
  | dropIndex className name => exact speaks_dropIndex className name
  | count query => exact speaks_count query
  | find query => exact speaks_find query
  | each query visitor => exact (speaks_each query visitor).map _
  | first query => exact speaks_first query
  | update query => exact speaks_update query
  | upsert query => exact speaks_upsert query
  | delete query => exact speaks_delete query
  | deleteAll query => exact speaks_deleteAll query
  | insert className fields => exact speaks_insert className fields

/-! ### Scripts and transactions -/

theorem speaks_inside {α : Type} (script : Script α) : Speaks true (script.run (backend connection patience) true) := by
  induction script with
  | done result => exact speaks_pure result
  | step operation next ih => exact (speaks_perform operation).bind fun outcome => ih outcome
  | transaction options body next hbody hnext =>
    -- a body within a transaction joins it
    apply Speaks.bind (hbody.bind fun ended => speaks_pure _)
    exact fun outcome => hnext outcome

end Dialogue

/-- What a body sends in a transaction: nothing that opens or ends one, and contested writes only under a savepoint of their own. -/
structure Trace.Inside (trace : Trace) : Prop where
  noBracket : ∀ event ∈ trace, event.1.sends Sql.isBracket = false
  guarded : ∀ (before : Trace) (event : Event) (after : Trace), trace = before ++ event :: after →
    event.1.sends Sql.isContested = true → event.Guarded before after

/-- An attempt at a transaction: it is refused at once, or it runs the body and ends as the body does. -/
inductive Trace.Attempt (isolation : IsolationLevel) {β : Type} (body : Dialogue (Outcome Unit × β)) : Trace → Prop where
  | refused (error : ServerError) : Attempt isolation body [⟨.batch (beginText isolation), .error error⟩]
  | committed {inside : Trace} {learned : β} (hbody : body.Course inside (.ok (), learned)) (hinside : inside.Inside)
      (answer : Except ServerError Unit) :
      Attempt isolation body (⟨.batch (beginText isolation), .ok ()⟩ :: inside ++ [⟨.batch "COMMIT", answer⟩])
  | rolledBack {inside : Trace} {failure : Failure} {learned : β} (hbody : body.Course inside (.error failure, learned))
      (hinside : inside.Inside) (answer : Except ServerError Unit) :
      Attempt isolation body (⟨.batch (beginText isolation), .ok ()⟩ :: inside ++ [⟨.batch "ROLLBACK", answer⟩])

/-- The traces of a script: requests outside any transaction, and attempts at transactions. -/
inductive Trace.Bracketed (patience : Nat) : Trace → Prop where
  | nil : Bracketed patience []
  | outside {event : Event} {rest : Trace} (hplain : event.1.Plain false) (hrest : Bracketed patience rest) :
      Bracketed patience (event :: rest)
  | attempt {β : Type} (options : TransactionOptions) (body : Script (Outcome Unit × β)) {first rest : Trace}
      (hattempt : first.Attempt options.isolation (body.run (backend Dialogue.connection patience) true))
      (hrest : Bracketed patience rest) : Bracketed patience (first ++ rest)

namespace Trace

variable {patience : Nat}

theorem Spoken.inside {trace : Trace} (h : Spoken true trace) : trace.Inside where
  noBracket := h.noBracket
  guarded _ _ _ htrace hcontested := h.guarded_of_contested htrace hcontested

theorem Bracketed.append {first second : Trace} (h : first.Bracketed patience) (hsecond : second.Bracketed patience) :
    (first ++ second).Bracketed patience := by
  induction h with
  | nil => exact hsecond
  | outside hplain _ ih => exact .outside hplain ih
  | attempt options body hattempt _ ih =>
    rw [List.append_assoc]
    exact .attempt options body hattempt ih

theorem Spoken.bracketed {trace : Trace} (h : Spoken false trace) : trace.Bracketed patience := by
  have hplain := h.plain_of_outside
  clear h
  induction trace with
  | nil => exact .nil
  | cons event rest ih =>
    obtain ⟨hevent, hrest⟩ := List.forall_mem_cons.mp hplain
    exact .outside hevent (ih hrest)

theorem bracketed_flatten {attempts : List Trace} (h : ∀ attempt ∈ attempts, attempt.Bracketed patience) :
    Bracketed patience attempts.flatten := by
  induction attempts with
  | nil => exact .nil
  | cons first rest ih =>
    obtain ⟨hfirst, hrest⟩ := List.forall_mem_cons.mp h
    exact hfirst.append (ih hrest)

end Trace

namespace Dialogue

variable {patience : Nat}

theorem course_attempt {isolation : IsolationLevel} {β : Type} {body : Dialogue (Outcome Unit × β)} (hbody : Speaks true body)
    {trace : Trace} {result : Outcome Unit × Option β} (h : Course (connection.attempt isolation body) trace result) :
    trace.Attempt isolation body := by
  obtain ⟨first, opened, second, rfl, hopened, hsecond⟩ := h.bind
  obtain ⟨answer, rfl, rfl⟩ := course_run (by cases isolation <;> decide) hopened
  obtain error | ⟨⟨⟩⟩ := answer
  · obtain ⟨rfl, -⟩ := course_pure hsecond
    exact .refused error
  obtain ⟨inside, ⟨outcome, learned⟩, ended, rfl, hinside, hended⟩ := hsecond.bind
  cases outcome with
  | ok _ =>
    obtain ⟨answer, rfl⟩ := course_run_bind (by decide) hended
    exact .committed hinside (hbody _ _ hinside).inside answer
  | error failure =>
    obtain ⟨answer, rfl⟩ := course_run_bind (by decide) hended
    exact .rolledBack hinside (hbody _ _ hinside).inside answer

/-- Retrying makes one attempt after another. -/
theorem course_retryingFrom {options : TransactionOptions} {β : Type} {attempt : Nat → Dialogue (Outcome Unit × Option β)}
    {remaining number : Nat} {earlier : Option β} {trace : Trace} {result : Outcome Unit × Option β}
    (h : Course (options.retryingFrom attempt remaining number earlier) trace result) :
    ∃ attempts : List Trace, attempts ≠ [] ∧ trace = attempts.flatten ∧
      ∀ single ∈ attempts, ∃ number result, Course (attempt number) single result := by
  induction remaining generalizing number earlier trace with
  | zero =>
    rw [TransactionOptions.retryingFrom_zero] at h
    obtain ⟨first, ended, second, rfl, hfirst, hsecond⟩ := h.bind
    obtain ⟨rfl, -⟩ := course_pure hsecond
    exact ⟨[first], List.cons_ne_nil _ _, by simp, fun single hsingle => List.mem_singleton.mp hsingle ▸ ⟨_, _, hfirst⟩⟩
  | succ remaining ih =>
    rw [TransactionOptions.retryingFrom_succ] at h
    obtain ⟨first, ended, second, rfl, hfirst, hsecond⟩ := h.bind
    have hlast : second = [] ∨ ∃ number earlier, Course (options.retryingFrom attempt remaining number earlier) second result := by
      split at hsecond
      · exact .inl (course_pure hsecond).1
      · split at hsecond
        · exact .inr ⟨_, _, hsecond⟩
        · exact .inl (course_pure hsecond).1
    rcases hlast with rfl | ⟨_, _, hagain⟩
    · exact ⟨[first], List.cons_ne_nil _ _, by simp, fun single hsingle => List.mem_singleton.mp hsingle ▸ ⟨_, _, hfirst⟩⟩
    · obtain ⟨attempts, -, rfl, hattempts⟩ := ih hagain
      exact ⟨first :: attempts, List.cons_ne_nil _ _, rfl, List.forall_mem_cons.mpr ⟨⟨_, _, hfirst⟩, hattempts⟩⟩

theorem course_transact {options : TransactionOptions} {β : Type} {body : Dialogue (Outcome Unit × β)} (hbody : Speaks true body)
    {trace : Trace} {result : Outcome Unit × Option β} (h : Course ((backend connection patience).transact options body) trace result) :
    ∃ attempts : List Trace, attempts ≠ [] ∧ trace = attempts.flatten ∧
      ∀ attempt ∈ attempts, Trace.Attempt options.isolation body attempt := by
  obtain ⟨attempts, hsome, rfl, hattempts⟩ := course_retryingFrom h
  refine ⟨attempts, hsome, rfl, fun attempt hattempt => ?_⟩
  obtain ⟨number, result, hcourse⟩ := hattempts attempt hattempt
  exact course_attempt hbody hcourse

theorem bracketed_run {α : Type} (script : Script α) {trace : Trace} {result : α}
    (h : Course (script.run (backend connection patience) false) trace result) : trace.Bracketed patience := by
  induction script generalizing trace with
  | done a =>
    obtain ⟨rfl, -⟩ := course_pure h
    exact .nil
  | step operation next ih =>
    obtain ⟨first, outcome, second, rfl, hfirst, hsecond⟩ := Course.bind h
    exact (speaks_perform operation first outcome hfirst).bracketed.append (ih outcome hsecond)
  | transaction options body next _ ih =>
    obtain ⟨first, outcome, second, rfl, hfirst, hsecond⟩ := Course.bind h
    obtain ⟨attempts, -, rfl, hattempts⟩ := course_transact (speaks_inside body) hfirst
    refine (Trace.bracketed_flatten fun attempt hattempt => ?_).append (ih outcome hsecond)
    have hbracketed := Trace.Bracketed.attempt options body (hattempts attempt hattempt) .nil
    rwa [List.append_nil] at hbracketed

/-- Whatever the server answers, a transaction is a row of attempts, each of which opens, speaks for the body and closes as the body ends, and outside of them nothing is sent that deals with transactions or savepoints. -/
theorem transactions_bracketed (patience : Nat) :
    (∀ {β : Type} (options : TransactionOptions) (body : Script (Outcome Unit × β)) (trace : Trace) (ended : Outcome Unit × Option β),
      Course ((backend connection patience).transact options (body.run (backend connection patience) true)) trace ended →
      ∃ attempts : List Trace, attempts ≠ [] ∧ trace = attempts.flatten ∧
        ∀ attempt ∈ attempts, attempt.Attempt options.isolation (body.run (backend connection patience) true)) ∧
    ∀ {α : Type} (script : Script α) (trace : Trace) (result : α),
      Course (script.run (backend connection patience) false) trace result → trace.Bracketed patience :=
  ⟨fun _ body _ _ h => course_transact (speaks_inside body) h, fun script _ _ h => bracketed_run script h⟩

/-- A server with one table that accepts whatever it is sent. -/
def accepting : (request : Request) → request.Answer
  | .now => (default : Instant)
  | .drawId => "x"
  | .lookup _ => .ok [("T", "_id", "text")]
  | .batch _ => .ok ()
  | .query _ => .ok {}
  | .execute _ => .ok 0

/-- A transaction within a transaction adds a column, and then the outer body fails. -/
theorem widening_bracketed :
    let inner : Script (Outcome Unit × Unit) := .step (.addColumns "T" [⟨"n", .integer⟩]) fun outcome => .done (outcome, ())
    let body : Script (Outcome Unit × Unit) := .transaction {} inner fun _ => .done (.error .invalidObjectId, ())
    let trace := (((backend connection 1).transact {} (body.run (backend connection 1) true)).play accepting).1
    trace.filterMap (fun event => event.1.text?) =
      ["BEGIN", "SAVEPOINT objlayer_ddl", "ALTER TABLE \"T\" ADD COLUMN IF NOT EXISTS \"n\" BIGINT", "RELEASE SAVEPOINT objlayer_ddl",
        "ROLLBACK"] ∧
    ∃ attempts : List Trace, attempts ≠ [] ∧ trace = attempts.flatten ∧
      ∀ attempt ∈ attempts, attempt.Attempt .default (body.run (backend connection 1) true) := by
  intro inner body trace
  refine ⟨by decide +kernel, ?_⟩
  exact (transactions_bracketed 1).1 {} body trace _ (course_play accepting _)

end Dialogue

end Relational

end ObjectStore
