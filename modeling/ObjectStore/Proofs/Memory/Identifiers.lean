import ObjectStore.Proofs.Memory.Stamps
import ObjectStore.Proofs.Memory.Upserts

/-!
# Identifiers that are taken

An insertion draws an identifier, and if a record of its class has it already, the whole attempt is lost: it used up a stamp and an identifier and changed nothing else. So attempts go along the stream of identifiers up to the first that is free in the class, and there the record is added at the end. An update-or-insert that finds no match does the same, unless its filters fix the id. Then it draws no identifier at all, and as every attempt asks for the same id, an id that is taken by a record which the filters reject is taken for good.
-/

namespace ObjectStore

namespace Memory

/-! ### The stream of identifiers -/

/-- The identifier that is drawn after a number of others. -/
def upcomingId (memory : Memory) (n : Nat) : String := memory.sources.ids (memory.sources.draws + n)

/-- The state after a stamp and an identifier were used. -/
def spent (memory : Memory) : Memory := { memory with sources := (stamped memory).sources.draw.2 }

/-- The record that is made of fields with the next stamp and the next identifier. -/
def newRecord (memory : Memory) (fields : Fields) : Fields :=
  Fields.stamped (.string (memory.upcomingId 0)) (.timestamp (WriteClock.micros.instant memory.spent.sources.last)) fields

/-- The state after that record was added at the end of its class. -/
def added (memory : Memory) (className : String) (fields : Fields) : Memory :=
  { memory.spent with
    tables := OrderedMap.insert memory.tables className (memory.tableOf className ++ [(memory.upcomingId 0, memory.newRecord fields)]) }

/-- Whether an identifier that is yet to be drawn is free in a class. -/
def HasUnused (memory : Memory) (className : String) : Prop :=
  ∃ n, memory.upcomingId n ∉ OrderedMap.keys (memory.tableOf className)

theorem upcomingId_spent (memory : Memory) (n : Nat) : memory.spent.upcomingId n = memory.upcomingId (n + 1) :=
  congrArg memory.sources.ids ((Nat.add_assoc _ _ _).trans (congrArg _ (Nat.add_comm 1 n)))

/-- What lost attempts use up. -/
structure Spent (times : Nat) (start after : Memory) : Prop where
  tables : after.tables = start.tables
  ids : after.sources.ids = start.sources.ids
  draws : after.sources.draws = start.sources.draws + times
  reads : after.sources.reads = start.sources.reads + times
  sound : start.sources.Sound → after.sources.Sound

theorem spent_iterate (times : Nat) (memory : Memory) : Spent times memory (spent^[times] memory) := by
  induction times generalizing memory with
  | zero => exact ⟨rfl, rfl, rfl, rfl, id⟩
  | succ times ih =>
    have hrest := ih memory.spent
    rw [Function.iterate_succ_apply]
    refine ⟨hrest.tables, hrest.ids, hrest.draws.trans ?_, hrest.reads.trans ?_, fun hsound => hrest.sound hsound.now.1.draw⟩
    · show memory.sources.draws + 1 + times = _
      omega
    · show memory.sources.reads + 1 + times = _
      omega

/-! ### One attempt -/

section Attempt

variable {α : Type} {memory current : Memory} {className : String} {fields : Fields} {answer : Fields → Outcome α}

/-- An attempt that draws an identifier is lost if that is taken, and adds a record if it is free. -/
structure Drew (className : String) (fields : Fields) (answer : Fields → Outcome α) (memory : Memory) (outcome : Outcome α)
    (after : Memory) : Prop where
  lost : memory.upcomingId 0 ∈ OrderedMap.keys (memory.tableOf className) →
    outcome = .error (duplicateId className (memory.upcomingId 0)) ∧ after = memory.spent
  won : memory.upcomingId 0 ∉ OrderedMap.keys (memory.tableOf className) →
    outcome = answer (memory.newRecord fields) ∧ after = memory.added className fields

theorem ends_insertDrawn (memory : Memory) (hopened : Opened memory.spent current className) {next : Action α}
    (hnext : ∀ final : Memory, Ends next final fun outcome after => outcome = answer (memory.newRecord fields) ∧ after = final) :
    Ends (insertRecord className (memory.tableOf className) (memory.upcomingId 0) (memory.newRecord fields) >>= fun _ => next) current
      (Drew className fields answer memory) := by
  refine ends_bind (ends_insertRecord (fun htaken => ?_) fun hfree => ?_)
  · have hmem := OrderedMap.contains_eq_true_iff.mp htaken
    refine ⟨fun _ => ⟨rfl, ?_⟩, fun hnot => absurd hmem hnot⟩
    have htables : current.tables = memory.spent.tables :=
      hopened.tables fun hnone => List.ne_nil_of_mem hmem (congrArg OrderedMap.keys hnone)
    exact congr (congrArg Memory.mk htables) hopened.sources
  · have hnot : memory.upcomingId 0 ∉ OrderedMap.keys (memory.tableOf className) := fun hmem => by
      rw [OrderedMap.contains_eq_true_iff.mpr hmem] at hfree
      cases hfree
    refine (hnext _).mono fun outcome after hdone => ⟨fun hmem => absurd hmem hnot, fun _ => ⟨hdone.1, hdone.2.trans ?_⟩⟩
    rw [hopened.insert, OrderedMap.insert_of_not_mem hnot, added]
    exact congrArg (Memory.mk _) hopened.sources

theorem drew_insertOnce (memory : Memory) (className : String) (fields : Fields) :
    Ends (insertOnce className fields) memory (Drew className fields (Object.ofRecord className) memory) := by
  refine ends_bind (ends_now.mpr (ends_bind (ends_drawId.mpr ?_)))
  refine ends_bind (ends_openSame fun opened hopened => ?_)
  exact ends_insertDrawn memory hopened fun final => ends_lift.mpr ⟨rfl, rfl⟩

theorem ends_updateNone {table : Table} {query : FindOneQuery} {stamp : Value}
    (hnone : ∀ entry ∈ table, Predicate.passes query.predicate? entry.2 = false) {post : Outcome (Option Fields) → Memory → Prop}
    (hpost : post (.ok none) memory) : Ends (updateFirst table query stamp) memory post := by
  rw [updateFirst, head?_selectEntries_eq_none_iff.mpr hnone]
  exact hpost

theorem passes_of_not_matched {query : FindOneQuery} (h : ¬memory.Matched query) :
    ∀ entry ∈ memory.tableOf query.className, Predicate.passes query.predicate? entry.2 = false :=
  fun entry hentry => Bool.eq_false_iff.mpr fun hpasses => h ⟨entry, hentry, hpasses⟩

/-- The fields of a record that is inserted from a seed. -/
def seedRest (seed : Fields) : Fields := OrderedMap.filter (fun key _ => !FieldName.isReserved key) seed

theorem drew_upsertOnce {query : FindOneQuery} {seed : Fields} (hseed : query.upsertSeed = .ok seed)
    (hfree : OrderedMap.get? seed FieldName.physicalId = none) (hnone : ¬memory.Matched query) :
    Ends (upsertOnce query) memory (Drew query.className (seedRest seed) (insertedAnswer query) memory) := by
  refine ends_bind (ends_now.mpr ?_)
  refine ends_bind (ends_openSame fun opened hopened => ?_)
  refine ends_bind (ends_updateNone (passes_of_not_matched hnone) (ends_bind (ends_lift.mpr ?_)))
  rw [hseed]
  refine ends_bind ?_
  rw [hfree]
  refine ends_drawId.mpr ?_
  rw [hopened.sources]
  have hdrawn : Opened memory.spent { opened with sources := memory.spent.sources } query.className :=
    ⟨rfl, hopened.records, hopened.insert, hopened.tables⟩
  exact ends_insertDrawn memory hdrawn fun final => ends_insertedAnswer query (memory.newRecord (seedRest seed)) final

end Attempt

/-! ### All attempts -/

section Attempts

variable {α : Type} {memory : Memory} {races : List Race} {attempt : Action α} {post : Outcome α → Memory → Prop} {remaining : Nat}

theorem ends_retryLost {number : Nat} {failure : Failure} {lost : Memory} (h : attempt.run.run memory = (.error failure, lost))
    (hrace : failure.isOneOf races = true)
    (hrest : Ends (ExceptT.mk (retryFrom races (fun _ => attempt.run) remaining (number + 1))) lost post) :
    Ends (ExceptT.mk (retryFrom races (fun _ => attempt.run) (remaining + 1) number)) memory post := by
  have hlost : Outcome.Lost races (attempt.run.run memory).1 := ⟨failure, congrArg Prod.fst h, hrace⟩
  rw [Ends, ExceptT.run_mk, run_retryFrom_of_lost hlost, h]
  exact hrest

/-- What a call has done that added one record to a class: it used the identifiers up to the first that was free, and as many stamps. -/
structure Added (start after : Memory) (className : String) (fields : Fields) (collisions : Nat) (record : Fields) : Prop where
  taken : ∀ k < collisions, start.upcomingId k ∈ OrderedMap.keys (start.tableOf className)
  free : start.upcomingId collisions ∉ OrderedMap.keys (start.tableOf className)
  draws : after.sources.draws = start.sources.draws + collisions + 1
  reads : after.sources.reads = start.sources.reads + collisions + 1
  made : record = Fields.stamped (.string (start.upcomingId collisions))
    (.timestamp (WriteClock.micros.instant after.sources.last)) fields
  tables : after.tables = OrderedMap.insert start.tables className
    (start.tableOf className ++ [(start.upcomingId collisions, record)])
  unchanged : ∀ other id old, start.record? other id = some old → after.record? other id = some old

theorem record?_of_appended {start after : Memory} {className id : String} {record : Fields}
    (hfree : id ∉ OrderedMap.keys (start.tableOf className))
    (htables : after.tables = OrderedMap.insert start.tables className (start.tableOf className ++ [(id, record)]))
    {other otherId : String} {old : Fields} (hold : start.record? other otherId = some old) :
    after.record? other otherId = some old := by
  rw [record?] at hold ⊢
  rw [tableOf_setTable htables]
  split
  · next same =>
    subst same
    have hne : id ≠ otherId := by
      rintro rfl
      exact hfree (OrderedMap.mem_keys_iff.mpr ⟨old, OrderedMap.mem_of_get? hold⟩)
    rw [← OrderedMap.insert_of_not_mem hfree, OrderedMap.get?_insert_of_ne hne, hold]
  · exact hold

variable {className : String} {fields : Fields} {answer : Fields → Outcome α}

/-- Attempts that draw identifiers are lost up to the first that is free, and the next one adds the record. -/
theorem ends_retryDrawn {start : Memory}
    (hattempt : ∀ current : Memory, current.tables = start.tables → Ends attempt current (Drew className fields answer current))
    {collisions : Nat} (hremaining : collisions ≤ remaining) (number : Nat) (hsame : memory.tables = start.tables)
    (htaken : ∀ k < collisions, memory.upcomingId k ∈ OrderedMap.keys (memory.tableOf className))
    (hfree : memory.upcomingId collisions ∉ OrderedMap.keys (memory.tableOf className)) {a : α}
    (hanswer : answer ((spent^[collisions] memory).newRecord fields) = .ok a) :
    Ends (ExceptT.mk (retryFrom [.duplicateId] (fun _ => attempt.run) remaining number)) memory
      fun outcome after => outcome = .ok a ∧ after = (spent^[collisions] memory).added className fields := by
  induction collisions generalizing memory remaining number with
  | zero =>
    have hwon : Ends attempt memory fun outcome after => outcome = .ok a ∧ after = memory.added className fields :=
      (hattempt memory hsame).mono fun outcome after hdrew => ⟨(hdrew.won hfree).1.trans hanswer, (hdrew.won hfree).2⟩
    exact ends_retryConclusive _ number hwon (hwon.mono fun outcome after hdone => ⟨hdone.1 ▸ .ok a⟩)
  | succ collisions ih =>
    obtain ⟨more, rfl⟩ : ∃ more, remaining = more + 1 := Nat.exists_eq_add_one.mpr (Nat.zero_lt_of_lt hremaining)
    have hdrew : Drew className fields answer memory (attempt.run.run memory).1 (attempt.run.run memory).2 := hattempt memory hsame
    obtain ⟨houtcome, hafter⟩ := hdrew.lost (htaken 0 (Nat.zero_lt_succ _))
    refine ends_retryLost (Prod.ext houtcome hafter) rfl ?_
    refine ih (Nat.le_of_succ_le_succ hremaining) (number + 1) hsame (fun k hk => ?_) ?_ hanswer
    · show memory.spent.upcomingId k ∈ OrderedMap.keys (memory.tableOf className)
      rw [upcomingId_spent]
      exact htaken (k + 1) (Nat.succ_lt_succ hk)
    · show memory.spent.upcomingId collisions ∉ OrderedMap.keys (memory.tableOf className)
      rw [upcomingId_spent]
      exact hfree

theorem added_iterate {collisions : Nat}
    (htaken : ∀ k < collisions, memory.upcomingId k ∈ OrderedMap.keys (memory.tableOf className))
    (hfree : memory.upcomingId collisions ∉ OrderedMap.keys (memory.tableOf className)) :
    Added memory ((spent^[collisions] memory).added className fields) className fields collisions
      ((spent^[collisions] memory).newRecord fields) := by
  have hspent := spent_iterate collisions memory
  have hid : (spent^[collisions] memory).upcomingId 0 = memory.upcomingId collisions := by
    rw [upcomingId, upcomingId, hspent.ids, hspent.draws, Nat.add_zero]
  have htables : ((spent^[collisions] memory).added className fields).tables = OrderedMap.insert memory.tables className
      (memory.tableOf className ++ [(memory.upcomingId collisions, (spent^[collisions] memory).newRecord fields)]) := by
    rw [added, hspent.tables, hid, tableOf_congr hspent.tables]
  refine ⟨htaken, hfree, congrArg Nat.succ hspent.draws, congrArg Nat.succ hspent.reads, ?_, htables,
    fun other id old hold => record?_of_appended hfree htables hold⟩
  rw [newRecord, hid]
  rfl

theorem exists_added (hkept : memory.Kept) (hunused : memory.HasUnused className)
    (hfields : ∀ name ∈ OrderedMap.keys fields, FieldName.isReserved name = false)
    (hattempt : ∀ current : Memory, current.tables = memory.tables → Ends attempt current (Drew className fields answer current))
    (hanswer : ∀ last id record, KeptRecord last id record → ∃ a, answer record = .ok a) :
    ∃ collisions, ∀ remaining, collisions ≤ remaining →
      Ends (ExceptT.mk (retryFrom [.duplicateId] (fun _ => attempt.run) remaining 0)) memory fun outcome after =>
        ∃ a record, outcome = .ok a ∧ answer record = .ok a ∧ Added memory after className fields collisions record := by
  classical
  let collisions := Nat.find hunused
  have hfree : memory.upcomingId collisions ∉ OrderedMap.keys (memory.tableOf className) := Nat.find_spec hunused
  have htaken : ∀ k < collisions, memory.upcomingId k ∈ OrderedMap.keys (memory.tableOf className) :=
    fun k hk => not_not.mp (Nat.find_min hunused hk)
  have hsound := (spent_iterate collisions memory).sound hkept.sources
  have hrecord : KeptRecord (spent^[collisions] memory).spent.sources.last ((spent^[collisions] memory).upcomingId 0)
      ((spent^[collisions] memory).newRecord fields) := KeptRecord.stamped hsound.now.2.2.1 _ hfields
  obtain ⟨a, ha⟩ := hanswer _ _ _ hrecord
  refine ⟨collisions, fun remaining hremaining => ?_⟩
  refine (ends_retryDrawn hattempt hremaining 0 rfl htaken hfree ha).mono ?_
  rintro outcome after ⟨rfl, rfl⟩
  exact ⟨a, _, rfl, ha, added_iterate htaken hfree⟩

end Attempts

/-! ### Insertions and upserts that draw -/

theorem exists_insertedAnswer (query : FindOneQuery) {last : Int} {id : String} {record : Fields} (hrecord : KeptRecord last id record) :
    ∃ answer, insertedAnswer query record = .ok answer := by
  rw [insertedAnswer]
  cases query.returning with
  | before => exact ⟨none, rfl⟩
  | after =>
    obtain ⟨object, hobject⟩ := hrecord.ofRecord_project query.className query.includes
    exact ⟨some object, by rw [hobject]; rfl⟩

section Drawing

variable {memory : Memory} (h : memory.Kept)

include h

theorem exists_added_insert {className : String} {fields : Fields} (hclass : className.isEmpty = false)
    (hnames : FieldName.rejectReserved (OrderedMap.keys fields) = .ok ()) (hunused : memory.HasUnused className) :
    ∃ collisions, ∀ attempts, collisions < attempts → Ends (perform attempts (.insert className fields)) memory fun outcome after =>
      ∃ object record, outcome = .ok object ∧ Object.ofRecord className record = .ok object ∧
        Added memory after className fields collisions record := by
  obtain ⟨collisions, hends⟩ := exists_added h hunused (FieldName.rejectReserved_eq_ok_iff.mp hnames)
    (fun current _ => drew_insertOnce current className fields) fun last id record hrecord => hrecord.ofRecord className
  refine ⟨collisions, fun attempts hattempts => ?_⟩
  rw [perform, hclass]
  exact ends_valid hnames (hends (attempts - 1) (Nat.le_sub_one_of_lt hattempts))

theorem exists_added_upsert {query : FindOneQuery} {seed : Fields} (hvalid : query.validate = .ok ())
    (hnames : FieldName.rejectReserved (OrderedMap.keys query.update ++ OrderedMap.keys query.setOnInsert) = .ok ())
    (hseed : query.toPhysical.upsertSeed = .ok seed) (hfree : OrderedMap.get? seed FieldName.physicalId = none)
    (hnone : ¬memory.Matched query.toPhysical) (hunused : memory.HasUnused query.className) :
    ∃ collisions, ∀ attempts, collisions < attempts → Ends (perform attempts (.upsert query)) memory fun outcome after =>
      ∃ answer record, outcome = .ok answer ∧ insertedAnswer query.toPhysical record = .ok answer ∧
        Added memory after query.className (seedRest seed) collisions record := by
  have hattempt (current : Memory) (hsame : current.tables = memory.tables) :
      Ends (upsertOnce query.toPhysical) current
        (Drew query.className (seedRest seed) (insertedAnswer query.toPhysical) current) := by
    refine drew_upsertOnce hseed hfree ?_
    rw [Matched, tableOf_congr hsame]
    exact hnone
  obtain ⟨collisions, hends⟩ := exists_added h hunused (not_isReserved_of_mem_filter seed) hattempt
    fun last id record hrecord => exists_insertedAnswer query.toPhysical hrecord
  refine ⟨collisions, fun attempts hattempts => ?_⟩
  refine ends_valid hvalid (ends_valid hnames (ends_bind (ends_lift.mpr ?_)))
  rw [hseed]
  simp only [andNext, OrderedMap.contains, hfree]
  exact hends (attempts - 1) (Nat.le_sub_one_of_lt hattempts)

end Drawing

/-! ### Upserts that fix the id -/

/-- Whether the filters of a query fix the id of its record. -/
def FixesId (query : FindOneQuery) : Prop :=
  FieldName.physicalId ∈ OrderedMap.keys (Predicate.equalitiesOfList query.toPhysical.filters)

instance (query : FindOneQuery) : Decidable (FixesId query) :=
  inferInstanceAs (Decidable (FieldName.physicalId ∈ OrderedMap.keys (Predicate.equalitiesOfList query.toPhysical.filters)))

/-- The identifier that is made of the value that an id is fixed to. -/
def idText : Value → String
  | .string id => id
  | other => ExtendedJson.toText other

theorem ends_seedFixed {value : Value} {post : Outcome String → Memory → Prop} {memory : Memory}
    (h : post (.ok (idText value)) memory) : Ends (seedId (some value)) memory post := by
  cases value <;> exact h

section Fixed

variable {memory : Memory} {query : FindOneQuery} {seed : Fields} {value : Value}

section Seed

variable (hnames : FieldName.rejectReserved (OrderedMap.keys query.update ++ OrderedMap.keys query.setOnInsert) = .ok ())
  (hseed : query.toPhysical.upsertSeed = .ok seed)

include hnames hseed

/-- The id in a seed comes from the filters, since neither the updates nor what is set on insert may name it. -/
theorem get?_seed_physicalId : OrderedMap.get? seed FieldName.physicalId =
    OrderedMap.get? (OrderedMap.ofList (Predicate.equalitiesOfList query.toPhysical.filters)) FieldName.physicalId := by
  have hupdate := not_mem_keys_of_rejectReserved hnames (List.subset_append_left _ _) FieldName.physicalId (by decide)
  have hset := not_mem_keys_of_rejectReserved hnames (List.subset_append_right _ _) FieldName.physicalId (by decide)
  exact (Updates.get?_applyTo_of_not_mem hseed hupdate).trans (OrderedMap.get?_extend_of_not_mem hset)

theorem get?_seed_of_not_fixesId (h : ¬FixesId query) : OrderedMap.get? seed FieldName.physicalId = none :=
  (get?_seed_physicalId hnames hseed).trans (OrderedMap.get?_extend_of_not_mem h)

theorem exists_seed_of_fixesId (h : FixesId query) : ∃ value, OrderedMap.get? seed FieldName.physicalId = some value ∧
    (FieldName.physicalId, value) ∈ Predicate.equalitiesOfList query.toPhysical.filters := by
  obtain ⟨value, hvalue, hmem⟩ := OrderedMap.exists_get?_ofList h
  exact ⟨value, (get?_seed_physicalId hnames hseed).trans hvalue, hmem⟩

end Seed

/-- Whatever comes of an action, it draws no identifier. -/
structure Undrawn {α : Type} (start : Memory) (outcome : Outcome α) (after : Memory) : Prop where
  draws : after.sources.draws = start.sources.draws

/-- An action fails for an id that is taken, and changes no table. -/
structure Refused {α : Type} (className id : String) (start : Memory) (outcome : Outcome α) (after : Memory) : Prop where
  failure : outcome = .error (duplicateId className id)
  tables : after.tables = start.tables

theorem undrawn_upsertOnce (hseed : query.upsertSeed = .ok seed) (hvalue : OrderedMap.get? seed FieldName.physicalId = some value)
    (memory : Memory) : Ends (upsertOnce query) memory (Undrawn memory) := by
  refine ends_bind (ends_now.mpr ?_)
  refine ends_bind (ends_openSame fun opened hopened => ?_)
  have hdraws : opened.sources.draws = memory.sources.draws := by
    rw [hopened.sources]
    rfl
  refine ends_bind (ends_replaceFirst ?none (fun _ _ => ⟨hdraws⟩) ?some)
  case none =>
    refine ends_bind (ends_lift.mpr ?_)
    rw [hseed]
    refine ends_bind ?_
    rw [hvalue]
    exact ends_seedFixed (ends_bind (ends_insertRecord (fun _ => ⟨hdraws⟩) fun _ => ends_insertedImage fun _ => ⟨hdraws⟩))
  case some => exact fun _ _ _ _ _ _ _ _ _ => ends_returned fun _ => ⟨hdraws⟩

theorem refused_upsertOnce (hseed : query.upsertSeed = .ok seed) (hvalue : OrderedMap.get? seed FieldName.physicalId = some value)
    (hnone : ¬memory.Matched query) (htaken : idText value ∈ OrderedMap.keys (memory.tableOf query.className)) :
    Ends (upsertOnce query) memory (Refused query.className (idText value) memory) := by
  refine ends_bind (ends_now.mpr ?_)
  refine ends_bind (ends_openSame fun opened hopened => ?_)
  refine ends_bind (ends_updateNone (passes_of_not_matched hnone) (ends_bind (ends_lift.mpr ?_)))
  rw [hseed]
  refine ends_bind ?_
  rw [hvalue]
  refine ends_seedFixed (ends_bind (ends_insertRecord (fun _ => ⟨rfl, hopened.tables ?_⟩) fun hfree => ?_))
  · exact fun hempty => List.ne_nil_of_mem htaken (congrArg OrderedMap.keys hempty)
  · exact absurd (OrderedMap.contains_eq_true_iff.mpr htaken) (Bool.eq_false_iff.mp hfree)

/-- A stored record that passes filters which fix the id is stored under the id that they fix. -/
theorem id_of_passes {last : Int} {id : String} {record : Fields} (hrecord : KeptRecord last id record)
    (hmem : (FieldName.physicalId, value) ∈ Predicate.equalitiesOfList query.filters)
    (hpasses : Predicate.passes query.predicate? record = true) : idText value = id := by
  have hholds : Predicate.allHold record query.filters = true := (Predicate.passes_conjunction? query.filters record).symm.trans hpasses
  have hmeets := Predicate.meets_of_allHold query.filters hholds _ hmem
  have hid : (Operand.key FieldName.physicalId).resolve record = .string id := by
    rw [Operand.resolve, hrecord.id, Option.getD_some]
  rw [Predicate.Meets, hid] at hmeets
  obtain rfl : value = .string id := Value.eq_of_looselyEquals_string hmeets
  rfl

/-- A record that is stored under the id that the filters fix, and is rejected by them, keeps every record from matching. -/
theorem not_matched_of_rejected (hkept : memory.Kept) (hdistinct : memory.Distinct) {record : Fields}
    (hmem : (FieldName.physicalId, value) ∈ Predicate.equalitiesOfList query.filters)
    (hrecord : memory.record? query.className (idText value) = some record)
    (hrejected : Predicate.passes query.predicate? record = false) : ¬memory.Matched query := by
  rintro ⟨⟨id, other⟩, hentry, hpasses⟩
  have hid : idText value = id := id_of_passes (hkept.tableOf _ _ hentry) hmem hpasses
  have hother : memory.record? query.className id = some other := OrderedMap.get?_of_mem (hdistinct.tableOf _) hentry
  rw [← hid, hrecord] at hother
  rw [← Option.some.inj hother, hrejected] at hpasses
  cases hpasses

/-! ### Calls that fix the id -/

theorem undrawn_upsert (h : FixesId query) (attempts : Nat) :
    Ends (perform attempts (.upsert query)) memory (Undrawn memory) := by
  refine ends_check (fun _ => ⟨rfl⟩) fun _ => ends_check (fun _ => ⟨rfl⟩) fun hnames => ends_bind (ends_lift.mpr ?_)
  cases hseed : query.toPhysical.upsertSeed with
  | error failure => exact ⟨rfl⟩
  | ok seed =>
    obtain ⟨value, hvalue, -⟩ := exists_seed_of_fixesId hnames hseed h
    refine ends_retryFrom (fun current => current.sources.draws = memory.sources.draws) (fun current hsame => ?_)
      (fun _ _ hlost => hlost.draws) _ 0 rfl
    exact (undrawn_upsertOnce hseed hvalue current).mono fun _ _ hattempt => ⟨hattempt.draws.trans hsame⟩

theorem refused_upsert (hvalid : query.validate = .ok ())
    (hnames : FieldName.rejectReserved (OrderedMap.keys query.update ++ OrderedMap.keys query.setOnInsert) = .ok ())
    (hseed : query.toPhysical.upsertSeed = .ok seed) (hvalue : OrderedMap.get? seed FieldName.physicalId = some value)
    (hnone : ¬memory.Matched query.toPhysical) (htaken : idText value ∈ OrderedMap.keys (memory.tableOf query.className))
    (attempts : Nat) : Ends (perform attempts (.upsert query)) memory (Refused query.className (idText value) memory) := by
  refine ends_valid hvalid (ends_valid hnames (ends_bind (ends_lift.mpr ?_)))
  rw [hseed]
  refine ends_retryFrom (fun current => current.tables = memory.tables) (fun current hsame => ?_) (fun _ _ hlost => hlost.tables) _ 0 rfl
  have hattempt : Ends (upsertOnce query.toPhysical) current (Refused query.className (idText value) current) := by
    refine refused_upsertOnce hseed hvalue ?_ ?_
    · rw [Matched, tableOf_congr hsame]
      exact hnone
    · rw [tableOf_congr hsame]
      exact htaken
  exact hattempt.mono fun _ _ hrefused => ⟨hrefused.failure, hrefused.tables.trans hsame⟩

end Fixed

/-- Collisions of identifiers lose nothing. An insertion, and an upsert that inserts under no id of its own, use the identifiers up to the first that is free in the class and add their record under it. An upsert that fixes the id draws none, and if the id is taken by a record that the filters reject, it fails for a duplicate id. -/
theorem collisions_resolved {patience : Nat} {memory : Memory} (h : Reachable patience memory) :
    (∀ className fields, className.isEmpty = false → FieldName.rejectReserved (OrderedMap.keys fields) = .ok () →
      memory.HasUnused className → ∃ collisions, ∀ attempts, collisions < attempts → ∃ object record after,
        (perform attempts (.insert className fields)).run.run memory = (.ok object, after) ∧
        Object.ofRecord className record = .ok object ∧ Added memory after className fields collisions record) ∧
    (∀ query seed, query.validate = .ok () →
      FieldName.rejectReserved (OrderedMap.keys query.update ++ OrderedMap.keys query.setOnInsert) = .ok () →
      query.toPhysical.upsertSeed = .ok seed → ¬FixesId query → ¬memory.Matched query.toPhysical →
      memory.HasUnused query.className → ∃ collisions, ∀ attempts, collisions < attempts → ∃ answer record after,
        (perform attempts (.upsert query)).run.run memory = (.ok answer, after) ∧
        insertedAnswer query.toPhysical record = .ok answer ∧
        Added memory after query.className (seedRest seed) collisions record) ∧
    ∀ query, FixesId query → ∀ attempts,
      (∀ outcome after, (perform attempts (.upsert query)).run.run memory = (outcome, after) →
        after.sources.draws = memory.sources.draws) ∧
      ∀ seed, query.validate = .ok () →
        FieldName.rejectReserved (OrderedMap.keys query.update ++ OrderedMap.keys query.setOnInsert) = .ok () →
        query.toPhysical.upsertSeed = .ok seed → ∃ value, OrderedMap.get? seed FieldName.physicalId = some value ∧
          ∀ record, memory.record? query.className (idText value) = some record →
            Predicate.passes query.toPhysical.predicate? record = false →
            ∃ failure after, (perform attempts (.upsert query)).run.run memory = (.error failure, after) ∧
              failure.race? = some .duplicateId ∧ after.tables = memory.tables := by
  refine ⟨?insert, ?upsert, fun query hfixes attempts => ⟨fun outcome after hrun => ?_, ?refused⟩⟩
  case insert =>
    intro className fields hclass hnames hunused
    obtain ⟨collisions, hends⟩ := exists_added_insert h.kept hclass hnames hunused
    refine ⟨collisions, fun attempts hattempts => ?_⟩
    rcases hrun : (perform attempts (.insert className fields)).run.run memory with ⟨outcome, after⟩
    obtain ⟨object, record, rfl, hdone⟩ := (hends attempts hattempts).of_run hrun
    exact ⟨object, record, after, rfl, hdone⟩
  case upsert =>
    intro query seed hvalid hnames hseed hfixes hnone hunused
    have hfree := get?_seed_of_not_fixesId hnames hseed hfixes
    obtain ⟨collisions, hends⟩ := exists_added_upsert h.kept hvalid hnames hseed hfree hnone hunused
    refine ⟨collisions, fun attempts hattempts => ?_⟩
    rcases hrun : (perform attempts (.upsert query)).run.run memory with ⟨outcome, after⟩
    obtain ⟨answer, record, rfl, hdone⟩ := (hends attempts hattempts).of_run hrun
    exact ⟨answer, record, after, rfl, hdone⟩
  · exact ((undrawn_upsert hfixes attempts).of_run hrun).draws
  case refused =>
    intro seed hvalid hnames hseed
    obtain ⟨value, hvalue, hmem⟩ := exists_seed_of_fixesId hnames hseed hfixes
    refine ⟨value, hvalue, fun record hrecord hrejected => ?_⟩
    have hnone : ¬memory.Matched query.toPhysical := not_matched_of_rejected h.kept h.distinct hmem hrecord hrejected
    have htaken : idText value ∈ OrderedMap.keys (memory.tableOf query.className) :=
      OrderedMap.mem_keys_iff.mpr ⟨record, OrderedMap.mem_of_get? hrecord⟩
    rcases hrun : (perform attempts (.upsert query)).run.run memory with ⟨outcome, after⟩
    have hrefused := (refused_upsert hvalid hnames hseed hvalue hnone htaken attempts).of_run hrun
    exact ⟨_, after, congrArg (·, after) hrefused.failure, rfl, hrefused.tables⟩

/-- Identifiers that repeat. -/
def repeating : Sources where
  ids index := if index < 3 then "A" else "B"
  wall _ := 0

/-- A store with one record, for which an identifier was drawn that is drawn twice more. -/
def repeatedDog : Memory :=
  (((Script.perform (.insert "Dog" [("name", .string "Rex")])).run (backend 2) false).run { sources := repeating }).2

theorem reachable_repeatedDog : Reachable 2 repeatedDog :=
  .run _ false (.empty repeating ⟨by decide, fun _ => ⟨default, rfl⟩⟩)

/-- An upsert of a dog of another name under the id of the first. -/
def namesake : FindOneQuery where
  className := "Dog"
  filters := [Key.id.eq (.string "A"), .compare .equal (.key "name") (.literal (.string "Max"))]

/-- An upsert of a dog of another name. -/
def anotherDog : FindOneQuery where
  className := "Dog"
  filters := [.compare .equal (.key "name") (.literal (.string "Max"))]

theorem not_matched_anotherDog : ¬repeatedDog.Matched anotherDog.toPhysical := by
  rintro ⟨entry, hentry, hpasses⟩
  obtain rfl := List.mem_singleton.mp hentry
  cases hpasses

theorem collisions_of_repeatedDog {collisions : Nat}
    (htaken : ∀ k < collisions, repeatedDog.upcomingId k ∈ OrderedMap.keys (repeatedDog.tableOf "Dog"))
    (hfree : repeatedDog.upcomingId collisions ∉ OrderedMap.keys (repeatedDog.tableOf "Dog")) : collisions = 2 := by
  refine Nat.le_antisymm (Nat.le_of_not_lt fun hmore => ?_) (Nat.le_of_not_lt fun hfewer => hfree ?_)
  · have hthird := htaken 2 hmore
    revert hthird
    decide +kernel
  · interval_cases collisions <;> decide +kernel

theorem Added.repeatedDog {after : Memory} {fields record : Fields} (h : Added repeatedDog after "Dog" fields 2 record) :
    OrderedMap.keys (after.tableOf "Dog") = ["A", "B"] ∧ after.sources.draws = 4 := by
  refine ⟨?_, h.draws⟩
  rw [tableOf_setTable_self h.tables]
  rfl

theorem repeatedDog_collisions :
    (∃ object after, (perform 3 (.insert "Dog" [("name", .string "Max")])).run.run repeatedDog = (.ok object, after) ∧
      OrderedMap.keys (after.tableOf "Dog") = ["A", "B"] ∧ after.sources.draws = 4) ∧
    (∃ answer after, (perform 3 (.upsert anotherDog)).run.run repeatedDog = (.ok answer, after) ∧
      OrderedMap.keys (after.tableOf "Dog") = ["A", "B"] ∧ after.sources.draws = 4) ∧
    ∃ failure after, (perform 3 (.upsert namesake)).run.run repeatedDog = (.error failure, after) ∧
      failure.race? = some .duplicateId ∧ after.sources.draws = 1 := by
  obtain ⟨hinsert, hupsert, hfixed⟩ := collisions_resolved reachable_repeatedDog
  have hunused : repeatedDog.HasUnused "Dog" := ⟨2, by decide +kernel⟩
  refine ⟨?insert, ?upsert, ?fixed⟩
  case insert =>
    obtain ⟨collisions, hcall⟩ := hinsert "Dog" [("name", .string "Max")] rfl rfl hunused
    obtain ⟨_, _, _, _, _, hadded⟩ := hcall (collisions + 1) (Nat.lt_succ_self _)
    obtain rfl := collisions_of_repeatedDog hadded.taken hadded.free
    obtain ⟨object, record, after, hrun, -, hadded⟩ := hcall 3 (by decide)
    exact ⟨object, after, hrun, hadded.repeatedDog⟩
  case upsert =>
    obtain ⟨collisions, hcall⟩ := hupsert anotherDog [("name", .string "Max")] rfl rfl rfl (by decide) not_matched_anotherDog hunused
    obtain ⟨_, _, _, _, _, hadded⟩ := hcall (collisions + 1) (Nat.lt_succ_self _)
    obtain rfl := collisions_of_repeatedDog hadded.taken hadded.free
    obtain ⟨answer, record, after, hrun, -, hadded⟩ := hcall 3 (by decide)
    exact ⟨answer, after, hrun, hadded.repeatedDog⟩
  case fixed =>
    obtain ⟨hdraws, hrefused⟩ := hfixed namesake (by decide) 3
    obtain ⟨value, hvalue, hfails⟩ := hrefused [("_id", .string "A"), ("name", .string "Max")] rfl rfl rfl
    obtain rfl : .string "A" = value := Option.some.inj hvalue
    obtain ⟨failure, after, hrun, hrace, -⟩ := hfails _ rfl rfl
    exact ⟨failure, after, hrun, hrace, hdraws _ _ hrun⟩

end Memory

end ObjectStore
