import ObjectStore.Proofs.Memory.Operations

/-!
# Reachable states of the in-memory store

Every operation keeps what the store keeps, and so does every script: a transaction that fails puts its tables back, and they were as they are kept at the last stamp of that time, which is no greater than the last stamp now.
-/

namespace ObjectStore

namespace Memory

variable {memory : Memory}

/-! ### Every operation -/

theorem ends_check {α : Type} {check : Outcome Unit} {next : Action α} {post : Outcome α → Memory → Prop}
    (hfailed : ∀ failure, post (.error failure) memory) (hok : check = .ok () → Ends next memory post) :
    Ends (liftM check >>= fun _ => next) memory post := by
  refine ends_bind (ends_lift.mpr ?_)
  cases check with
  | error failure => exact hfailed failure
  | ok => exact hok rfl

theorem ends_valid {α : Type} {check : Outcome Unit} {next : Action α} {post : Outcome α → Memory → Prop}
    (hcheck : check = .ok ()) (h : Ends next memory post) : Ends (liftM check >>= fun _ => next) memory post := by
  rw [hcheck]
  exact h

theorem not_mem_keys_of_rejectReserved {α : Type} {map : OrderedMap α} {names : List String}
    (hnames : FieldName.rejectReserved names = .ok ()) (hsub : OrderedMap.keys map ⊆ names) (name : String)
    (hname : FieldName.isReserved name = true) : name ∉ OrderedMap.keys (OrderedMap.mapKeys FieldName.toPhysical map) :=
  not_mem_keys_toPhysical (fun other hother => FieldName.rejectReserved_eq_ok_iff.mp hnames other (hsub hother)) hname

theorem ends_find (query : FindQuery) : Ends (find query) memory fun _ after => after = memory := by
  refine ends_check (fun _ => rfl) fun _ => ends_bind (ends_table?.mpr ?_)
  cases OrderedMap.get? memory.tables query.className with
  | none => rfl
  | some table =>
    simp only [andNext]
    rw [ends_lift]

theorem ends_first (query : FindQuery) :
    Ends (do return (← find query).head? : Action (Option Object)) memory fun _ after => after = memory := by
  refine ends_bind ((ends_find query).mono ?_)
  rintro (failure | objects) after rfl <;> rfl

section

variable (patience : Nat)

theorem safe_createTable (h : memory.Kept) (className : String) : Ends (createTable className) memory (Safe memory) := by
  rw [createTable]
  split
  · exact h.safe _
  · exact ends_bind (ends_openTable (fun table htable => h.safe_ok _) fun hmissing => ⟨h.setTable nofun, Int.le_refl _, nofun⟩)

theorem safe_dropTable (h : memory.Kept) (className : String) :
    Ends (perform patience (.dropTable className)) memory (Safe memory) := by
  refine ⟨⟨h.sources, fun entry hentry => ?_⟩, Int.le_refl _, nofun⟩
  exact h.tables entry ((OrderedMap.erase_sublist memory.tables className).subset hentry)

theorem safe_dropColumns (h : memory.Kept) (className : String) (columns : List String) :
    Ends (perform patience (.dropColumns className columns)) memory (Safe memory) := by
  refine ends_check (fun _ => h.safe _) fun hcolumns => ends_bind (ends_table?.mpr ?_)
  cases htable : OrderedMap.get? memory.tables className with
  | none => exact h.safe_ok _
  | some table => exact ⟨h.setTable ((h.keptTable htable).eraseColumns hcolumns), Int.le_refl _, nofun⟩

theorem safe_count (h : memory.Kept) (query : FindQuery) : Ends (perform patience (.count query)) memory (Safe memory) := by
  refine ends_check (fun _ => h.safe _) fun _ => ends_bind (ends_table?.mpr ?_)
  cases OrderedMap.get? memory.tables query.className with
  | none => exact h.safe_ok _
  | some table => exact h.safe_ok _

theorem safe_each (h : memory.Kept) (query : FindQuery) (visitor : Visitor) :
    Ends (perform patience (.each query visitor)) memory (Safe memory) := by
  refine ends_bind (ends_caught.mpr ((ends_find query).mono ?_))
  rintro outcome after rfl
  cases outcome with
  | error failure => exact h.safe_ok _
  | ok objects => exact h.safe_ok _

theorem safe_update (h : memory.Kept) (query : FindOneQuery) :
    Ends (perform patience (.update query)) memory (Safe memory) := by
  refine ends_check (fun _ => h.safe _) fun _ => ends_check (fun _ => h.safe _) fun hnames => ?_
  refine ends_bind (ends_now_kept h fun hstamped hlater hfirst => ends_bind (ends_table?.mpr ?_))
  cases htable : OrderedMap.get? (stamped memory).tables query.className with
  | none => exact ⟨hstamped, hlater, nofun⟩
  | some table =>
    have hkept := hstamped.keptTable htable
    have hupdates := not_mem_keys_of_rejectReserved hnames (List.Subset.refl _)
    refine ends_bind (ends_updateFirst hkept hupdates (Int.le_refl _) ⟨hstamped, hlater, nofun⟩
      (fun _ _ => ⟨hstamped, hlater, fun _ _ => rfl⟩) fun id before after image hbefore hafter himage => ?_)
    obtain ⟨object, hobject⟩ := himage.ofRecord_project query.className query.toPhysical.includes
    refine ends_bind (ends_lift.mpr ?_)
    rw [hobject]
    exact ⟨hstamped.setTable (hkept.insert hafter), hlater, nofun⟩

theorem safe_upsert (h : memory.Kept) (query : FindOneQuery) :
    Ends (perform patience (.upsert query)) memory (Safe memory) := by
  refine ends_check (fun _ => h.safe _) fun _ => ends_check (fun _ => h.safe _) fun hnames => ?_
  refine ends_bind (ends_lift.mpr ?_)
  cases hseed : query.toPhysical.upsertSeed with
  | error failure => exact h.safe _
  | ok seed =>
    have hupdates := not_mem_keys_of_rejectReserved hnames (List.subset_append_left _ _)
    exact safe_retryRaces (fun memory hmemory => safe_upsertOnce hmemory hupdates hseed) _ patience h

theorem safe_delete (h : memory.Kept) (query : FindOneQuery) :
    Ends (perform patience (.delete query)) memory (Safe memory) := by
  refine ends_check (fun _ => h.safe _) fun _ => ends_bind (ends_table?.mpr ?_)
  cases htable : OrderedMap.get? memory.tables query.className with
  | none => exact h.safe_ok _
  | some table =>
    have hkept := h.keptTable htable
    simp only [andNext]
    cases hfirst : (selectEntries table query.toPhysical.asFind).head? with
    | none => exact h.safe_ok _
    | some entry =>
      have hrecord := hkept _ (mem_of_mem_selectEntries (List.mem_of_head? hfirst))
      obtain ⟨object, hobject⟩ := hrecord.ofRecord_project query.className query.toPhysical.includes
      refine ends_bind (ends_setTable.mpr (ends_bind (ends_lift.mpr ?_)))
      rw [hobject]
      exact ⟨h.setTable (hkept.sublist (OrderedMap.erase_sublist table entry.1)), Int.le_refl _, nofun⟩

theorem safe_deleteAll (h : memory.Kept) (query : FindQuery) :
    Ends (perform patience (.deleteAll query)) memory (Safe memory) := by
  refine ends_check (fun _ => h.safe _) fun _ => ends_bind (ends_table?.mpr ?_)
  cases htable : OrderedMap.get? memory.tables query.className with
  | none => exact h.safe_ok _
  | some table =>
    exact ⟨h.setTable ((h.keptTable htable).sublist (OrderedMap.foldl_erase_sublist _ table)), Int.le_refl _, nofun⟩

theorem safe_insert (h : memory.Kept) (className : String) (fields : Fields) :
    Ends (perform patience (.insert className fields)) memory (Safe memory) := by
  rw [perform]
  split
  · exact h.safe _
  · refine ends_check (fun _ => h.safe _) fun hnames => ?_
    have hfields := FieldName.rejectReserved_eq_ok_iff.mp hnames
    exact safe_retryRaces (fun memory hmemory => safe_insertOnce hmemory className hfields) none patience h

/-- An operation keeps what the store keeps, and one that fails changes no table. -/
theorem safe_perform (h : memory.Kept) (operation : Operation) :
    Ends (perform patience operation) memory (Safe memory) := by
  cases operation with
  | tables => exact h.safe_ok _
  | createTable className columns => exact safe_createTable h className
  | addColumns className columns => exact safe_createTable h className
  | dropTable className => exact safe_dropTable patience h className
  | dropColumns className columns => exact safe_dropColumns patience h className columns
  | addIndex className name keys unique => exact h.safe_ok _
  | dropIndex className name => exact h.safe_ok _
  | count query => exact safe_count patience h query
  | find query =>
    refine (ends_find query).mono ?_
    rintro outcome after rfl
    exact h.safe _
  | each query visitor => exact safe_each patience h query visitor
  | first query =>
    refine (ends_first { query with limit := some 1 }).mono ?_
    rintro outcome after rfl
    exact h.safe _
  | update query => exact safe_update patience h query
  | upsert query => exact safe_upsert patience h query
  | delete query => exact safe_delete patience h query
  | deleteAll query => exact safe_deleteAll patience h query
  | insert className fields => exact safe_insert patience h className fields

end

/-! ### Every script -/

/-- One state may come after another: it is as operations leave it, and no stamp went back. -/
structure Follows (start after : Memory) : Prop where
  kept : after.Kept
  later : start.sources.last ≤ after.sources.last

theorem Follows.trans {a b c : Memory} (hab : Follows a b) (hbc : Follows b c) : Follows a c :=
  ⟨hbc.kept, Int.le_trans hab.later hbc.later⟩

theorem run_transact {β : Type} (body : StateM Memory (Outcome Unit × β)) :
    (transact body).run memory =
      match body.run memory with
      | ((.ok (), learned), after) => ((.ok (), some learned), after)
      | ((.error failure, learned), after) => ((.error failure, some learned), { after with tables := memory.tables }) := by
  rcases hbody : body.run memory with ⟨⟨outcome, learned⟩, after⟩
  cases outcome with
  | ok =>
    simp only [transact, StateT.run_bind, StateT.run_get, hbody, pure_bind]
    rfl
  | error failure =>
    simp only [transact, StateT.run_bind, StateT.run_get, hbody, pure_bind]
    rfl

theorem follows_transact (h : memory.Kept) {β : Type} {body : StateM Memory (Outcome Unit × β)}
    (hbody : Follows memory (body.run memory).2) : Follows memory ((transact body).run memory).2 := by
  rw [run_transact]
  rcases hrun : body.run memory with ⟨⟨outcome, learned⟩, after⟩
  rw [hrun] at hbody
  cases outcome with
  | ok => exact hbody
  | error failure =>
    -- the tables of before are kept with respect to the stamps of now
    have hrestored : Kept { after with tables := memory.tables } :=
      ⟨hbody.kept.sources, fun entry hentry => (h.tables entry hentry).mono hbody.later⟩
    exact ⟨hrestored, hbody.later⟩

theorem follows_bracket (patience : Nat) (h : memory.Kept) (inTransaction : Bool) (options : TransactionOptions) {β : Type}
    {body : StateM Memory (Outcome Unit × β)} (hbody : Follows memory (body.run memory).2) :
    Follows memory (((backend patience).bracket inTransaction options body).run memory).2 := by
  cases inTransaction with
  | true => exact hbody
  | false => exact follows_transact h hbody

/-- A script keeps what the store keeps, step by step. -/
theorem follows_run (patience : Nat) {α : Type} (script : Script α) (inTransaction : Bool) (h : memory.Kept) :
    Follows memory ((script.run (backend patience) inTransaction).run memory).2 := by
  induction script generalizing memory inTransaction with
  | done result => exact ⟨h, Int.le_refl _⟩
  | step operation next ih =>
    have hone : Safe memory ((perform patience operation).run.run memory).1 ((perform patience operation).run.run memory).2 :=
      safe_perform patience h operation
    exact Follows.trans ⟨hone.kept, hone.later⟩ (ih _ inTransaction hone.kept)
  | transaction options body next ihBody ihNext =>
    have hbody := follows_bracket patience h inTransaction options (ihBody true h)
    exact hbody.trans (ihNext _ inTransaction hbody.kept)

/-! ### Every reachable state -/

/-- The states of a store that was empty at first, between operations and in the middle of transactions. -/
inductive Reachable (patience : Nat) : Memory → Prop where
  | empty (sources : Sources) (h : sources.Sound) : Reachable patience { sources }
  | run {α : Type} {memory : Memory} (script : Script α) (inTransaction : Bool) (h : Reachable patience memory) :
    Reachable patience ((script.run (backend patience) inTransaction).run memory).2

theorem Reachable.kept {patience : Nat} (h : Reachable patience memory) : memory.Kept := by
  induction h with
  | empty sources h => exact ⟨h, nofun⟩
  | run script inTransaction _ ih => exact (follows_run patience script inTransaction ih).kept

/-- Every stored record has its id and its stamps, the later one last, none of the names that callers use for them, and can be read back; so an operation that fails has not stored or removed anything. -/
theorem reachable_records {patience : Nat} (h : Reachable patience memory) :
    (∀ className table id record, (className, table) ∈ memory.tables → (id, record) ∈ table →
      OrderedMap.get? record FieldName.physicalId = some (.string id) ∧
      (∃ created updated, OrderedMap.get? record FieldName.physicalCreatedAt = some (.timestamp created) ∧
        OrderedMap.get? record FieldName.physicalUpdatedAt = some (.timestamp updated) ∧ created.compare updated ≠ .gt) ∧
      (∀ name ∈ [FieldName.id, FieldName.createdAt, FieldName.updatedAt], name ∉ OrderedMap.keys record) ∧
      ∃ object, Object.ofRecord className record = .ok object) ∧
    ∀ operation failure after, (perform patience operation).run.run memory = (.error failure, after) →
      after.tables = memory.tables := by
  have hkept := h.kept
  refine ⟨fun className table id record htable hentry => ?_, fun operation failure after hrun => ?_⟩
  · have hrecord : KeptRecord memory.sources.last id record := hkept.tables _ htable _ hentry
    obtain ⟨created, updated, hfirst, horder, -, hcreated, hupdated⟩ := hrecord.stamps
    exact ⟨hrecord.id, ⟨_, _, hcreated, hupdated, WriteClock.instant_mono hfirst horder⟩,
      fun name hname => OrderedMap.get?_eq_none_iff.mp (hrecord.aliases name hname), hrecord.ofRecord className⟩
  · have hsafe : Safe memory ((perform patience operation).run.run memory).1 ((perform patience operation).run.run memory).2 :=
      safe_perform patience hkept operation
    rw [hrun] at hsafe
    exact hsafe.unchanged failure rfl

/-- Identifiers and readings for a small store. -/
def twoIds : Sources where
  ids index := if index = 0 then "A" else "B"
  wall _ := 0

/-- A store with one record. -/
def oneDog : Memory :=
  (((Script.perform (.insert "Dog" [("name", .string "Rex")])).run (backend 2) false).run { sources := twoIds }).2

theorem reachable_oneDog : Reachable 2 oneDog := by
  refine .run _ false (.empty twoIds ⟨by decide, fun _ => ⟨default, rfl⟩⟩)

theorem oneDog_records :
    (∃ record, oneDog.tables = [("Dog", [("A", record)])] ∧ OrderedMap.get? record FieldName.physicalId = some (.string "A")) := by
  have hrecords := reachable_records reachable_oneDog
  refine ⟨_, rfl, ?_⟩
  exact (hrecords.1 "Dog" _ "A" _ List.mem_cons_self List.mem_cons_self).1

/-- A call from outside of all transactions that fails leaves all classes and records as they were, in their order. -/
theorem failed_call_changes_nothing {patience : Nat} (h : Reachable patience memory) :
    (∀ operation failure after, ((backend patience).perform false operation).run memory = (.error failure, after) →
      after.tables = memory.tables) ∧
    ∀ (β : Type) (options : TransactionOptions) (body : Script (Outcome Unit × β)) failure learned after,
      ((backend patience).bracket false options (body.run (backend patience) true)).run memory =
        ((.error failure, learned), after) → after.tables = memory.tables := by
  refine ⟨fun operation failure after hrun => ?_, fun β options body failure learned after hrun => ?_⟩
  · have hsafe : Safe memory ((perform patience operation).run.run memory).1 ((perform patience operation).run.run memory).2 :=
      safe_perform patience h.kept operation
    have hperform : (perform patience operation).run.run memory = (.error failure, after) := hrun
    rw [hperform] at hsafe
    exact hsafe.unchanged failure rfl
  · have hbracket : (transact (body.run (backend patience) true)).run memory = ((.error failure, learned), after) := hrun
    rw [run_transact] at hbracket
    split at hbracket
    · cases hbracket
    · cases hbracket
      rfl

/-- An upsert that matches nothing and asks for an id that is taken. -/
def rejectedUpsert : Operation :=
  .upsert { className := "Dog", filters := [Key.id.eq (.string "A"), (Key.mk "name").eq (.string "Max")] }

theorem rejectedUpsert_changes_nothing :
    ∃ after, ((backend 2).perform false rejectedUpsert).run oneDog = (.error (duplicateId "Dog" "A"), after) ∧
      after.tables = oneDog.tables := by
  have hfailed : ((backend 2).perform false rejectedUpsert).run oneDog =
      (.error (duplicateId "Dog" "A"), (((backend 2).perform false rejectedUpsert).run oneDog).2) := rfl
  exact ⟨_, hfailed, (failed_call_changes_nothing reachable_oneDog).1 rejectedUpsert _ _ hfailed⟩

end Memory

end ObjectStore
