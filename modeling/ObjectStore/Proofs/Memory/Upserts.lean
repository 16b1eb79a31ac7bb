import ObjectStore.Proofs.Memory.Writes
import ObjectStore.Proofs.Value.Loose

/-!
# Upserts that are repeated

A query whose filters fix distinct fields by equalities describes the record that it is looking for. If there is no such record, the one that is inserted has all those fields as they are fixed, so the same query finds it from then on. If there is one, updates of other fields leave it a match. Either way a repeated call finds a match, and adds no further record.
-/

namespace ObjectStore

/-- Whether a query fixes distinct fields by equalities alone, and neither updates them nor sets them on insert. -/
structure Pins (query : FindOneQuery) : Prop where
  equalities : Predicate.areEqualities query.filters = true
  distinct : ((OrderedMap.keys (Predicate.equalitiesOfList query.filters)).map FieldName.toPhysical).Nodup
  /-- No reserved field is fixed but the id, and that to a string. -/
  names : ∀ entry ∈ Predicate.equalitiesOfList query.filters,
    FieldName.isReserved entry.1 = false ∨ entry.1 = FieldName.id ∧ ∃ text, entry.2 = .string text
  values : ∀ entry ∈ Predicate.equalitiesOfList query.filters, entry.2.wellFormed = true ∧ entry.2.lacksNaN = true
  separate : ∀ key ∈ OrderedMap.keys (Predicate.equalitiesOfList query.filters),
    key ∉ OrderedMap.keys query.update ∧ key ∉ OrderedMap.keys query.setOnInsert

/-- What this means for the query in the names of storage. -/
structure Pinned (query : FindOneQuery) : Prop where
  equalities : Predicate.areEqualities query.filters = true
  distinct : OrderedMap.Distinct (Predicate.equalitiesOfList query.filters)
  names : ∀ entry ∈ Predicate.equalitiesOfList query.filters,
    FieldName.isReserved entry.1 = false ∨ entry.1 = FieldName.physicalId ∧ ∃ text, entry.2 = .string text
  same : ∀ entry ∈ Predicate.equalitiesOfList query.filters, entry.2.looselyEquals entry.2 = true
  separate : ∀ key ∈ OrderedMap.keys (Predicate.equalitiesOfList query.filters),
    key ∉ OrderedMap.keys query.update ∧ key ∉ OrderedMap.keys query.setOnInsert

/-- A name that is not reserved is stored under itself, and no other name is. -/
theorem mem_keys_of_mem_keys_toPhysical {α : Type} {map : OrderedMap α}
    (hnames : ∀ name ∈ OrderedMap.keys map, FieldName.isReserved name = false) {key : String}
    (h : key ∈ OrderedMap.keys (OrderedMap.mapKeys FieldName.toPhysical map)) : key ∈ OrderedMap.keys map := by
  obtain ⟨value, hentry⟩ := OrderedMap.mem_keys_iff.mp h
  obtain ⟨name, hname, rfl⟩ := OrderedMap.mem_mapKeys hentry
  have hmem : name ∈ OrderedMap.keys map := OrderedMap.mem_keys_iff.mpr ⟨value, hname⟩
  rwa [FieldName.toPhysical_of_not_reserved (hnames name hmem)]

theorem Pins.toPhysical {query : FindOneQuery} (h : Pins query)
    (hnames : FieldName.rejectReserved (OrderedMap.keys query.update ++ OrderedMap.keys query.setOnInsert) = .ok ()) :
    Pinned query.toPhysical := by
  obtain ⟨hequalities, hfixed⟩ := Predicate.equalitiesOfList_map_mapKeys FieldName.toPhysical h.equalities
  have hplain := FieldName.rejectReserved_eq_ok_iff.mp hnames
  have hentries : ∀ entry ∈ Predicate.equalitiesOfList query.toPhysical.filters,
      ∃ name, (name, entry.2) ∈ Predicate.equalitiesOfList query.filters ∧ FieldName.toPhysical name = entry.1 := by
    intro entry hentry
    obtain ⟨⟨name, value⟩, horiginal, rfl⟩ := List.mem_map.mp (hfixed ▸ hentry)
    exact ⟨name, horiginal, rfl⟩
  have hphysical : ∀ entry ∈ Predicate.equalitiesOfList query.toPhysical.filters,
      (FieldName.isReserved entry.1 = false ∧ entry ∈ Predicate.equalitiesOfList query.filters) ∨
        entry.1 = FieldName.physicalId ∧ ∃ text, entry.2 = .string text := by
    rintro ⟨key, value⟩ hentry
    obtain ⟨name, horiginal, rfl⟩ := hentries _ hentry
    rcases h.names _ horiginal with hname | ⟨hid, htext⟩
    · rw [FieldName.toPhysical_of_not_reserved hname]
      exact .inl ⟨hname, horiginal⟩
    · have hid : name = FieldName.id := hid
      exact .inr ⟨by rw [hid]; rfl, htext⟩
  refine ⟨hequalities, ?_, fun entry hentry => (hphysical entry hentry).imp_left And.left, fun entry hentry => ?_, fun key hkey => ?_⟩
  · show (List.map Prod.fst (Predicate.equalitiesOfList (query.filters.map (Predicate.mapKeys FieldName.toPhysical)))).Nodup
    have hdistinct := h.distinct
    rw [OrderedMap.keys, List.map_map] at hdistinct
    rw [hfixed, List.map_map]
    exact hdistinct
  · obtain ⟨name, horiginal, -⟩ := hentries entry hentry
    obtain ⟨hwell, hnan⟩ := h.values _ horiginal
    exact Value.looselyEquals_self hwell hnan
  · obtain ⟨value, hentry⟩ := OrderedMap.mem_keys_iff.mp hkey
    rcases hphysical _ hentry with ⟨-, horiginal⟩ | ⟨hid, -⟩
    · obtain ⟨hupdate, hinsert⟩ := h.separate key (OrderedMap.mem_keys_iff.mpr ⟨value, horiginal⟩)
      refine ⟨fun hmem => hupdate ?_, fun hmem => hinsert ?_⟩
      · exact mem_keys_of_mem_keys_toPhysical (fun name hname => hplain name (List.mem_append_left _ hname)) hmem
      · exact mem_keys_of_mem_keys_toPhysical (fun name hname => hplain name (List.mem_append_right _ hname)) hmem
    · obtain rfl : key = FieldName.physicalId := hid
      exact ⟨not_mem_keys_toPhysical (fun name hname => hplain name (List.mem_append_left _ hname)) (by decide),
        not_mem_keys_toPhysical (fun name hname => hplain name (List.mem_append_right _ hname)) (by decide)⟩

namespace Pinned

variable {query : FindOneQuery} (h : Pinned query)

include h

theorem ne_physicalUpdatedAt {key : String} (hkey : key ∈ OrderedMap.keys (Predicate.equalitiesOfList query.filters)) :
    FieldName.physicalUpdatedAt ≠ key := by
  obtain ⟨value, hentry⟩ := OrderedMap.mem_keys_iff.mp hkey
  rintro rfl
  rcases h.names _ hentry with hplain | ⟨hid, -⟩
  · exact absurd (show FieldName.isReserved FieldName.physicalUpdatedAt = false from hplain) (by decide)
  · exact absurd (show FieldName.physicalUpdatedAt = FieldName.physicalId from hid) (by decide)

theorem passes_updated {before updated : Fields} (hbefore : Predicate.passes query.predicate? before = true)
    (hupdated : Memory.applyUpdates query.update before = .ok updated) (stamp : Value) :
    Predicate.passes query.predicate? (OrderedMap.insert updated FieldName.physicalUpdatedAt stamp) = true := by
  rw [FindOneQuery.predicate?, Predicate.passes_conjunction?] at hbefore ⊢
  rw [← hbefore]
  refine Predicate.allHold_congr query.filters fun key hkey => ?_
  rw [Predicate.keysOfList_of_areEqualities h.equalities] at hkey
  rw [OrderedMap.get?_insert_of_ne (h.ne_physicalUpdatedAt hkey), Memory.KeptRecord.get?_applyUpdates hupdated (h.separate key hkey).1]

theorem passes_stamped {seed : Fields} (hseed : query.upsertSeed = .ok seed) {id : String}
    (hid : ∀ text, OrderedMap.get? seed FieldName.physicalId = some (.string text) → id = text) (stamp : Value) :
    Predicate.passes query.predicate?
      (Fields.stamped (.string id) stamp (OrderedMap.filter (fun key _ => !FieldName.isReserved key) seed)) = true := by
  have hplain := Memory.not_isReserved_of_mem_filter seed
  have hdistinct : OrderedMap.Distinct (OrderedMap.filter (fun key _ => !FieldName.isReserved key) seed) :=
    OrderedMap.distinct_filter (Updates.distinct_applyTo hseed query.distinct_seedFields) _
  rw [FindOneQuery.predicate?, Predicate.passes_conjunction?]
  refine Predicate.allHold_of_fixed h.equalities fun entry hentry => ⟨?_, h.same entry hentry⟩
  have hkey : entry.1 ∈ OrderedMap.keys (Predicate.equalitiesOfList query.filters) := OrderedMap.mem_keys_iff.mpr ⟨entry.2, hentry⟩
  obtain ⟨hupdate, hinsert⟩ := h.separate entry.1 hkey
  have hget : OrderedMap.get? seed entry.1 = some entry.2 :=
    calc OrderedMap.get? seed entry.1
        = OrderedMap.get? query.seedFields entry.1 := Updates.get?_applyTo_of_not_mem hseed hupdate
      _ = OrderedMap.get? (OrderedMap.ofList (Predicate.equalitiesOfList query.filters)) entry.1 :=
        OrderedMap.get?_extend_of_not_mem hinsert
      _ = OrderedMap.get? (Predicate.equalitiesOfList query.filters) entry.1 := by rw [OrderedMap.ofList_of_distinct h.distinct]
      _ = some entry.2 := OrderedMap.get?_of_mem h.distinct hentry
  rcases h.names entry hentry with hname | ⟨hname, text, htext⟩
  · rw [Fields.stamped, OrderedMap.get?_extend hdistinct, OrderedMap.get?_filter fun key => !FieldName.isReserved key, hname, hget]
    rfl
  · rw [hname, htext] at hget
    rw [hname, htext, Fields.get?_stamped hplain _ _ (by decide), hid text hget]
    rfl

end Pinned

namespace Memory

variable {memory : Memory} {query : FindOneQuery}

/-- Whether a stored record passes the filters of a query in the names of storage. -/
def Matched (memory : Memory) (query : FindOneQuery) : Prop :=
  ∃ entry ∈ memory.tableOf query.className, Predicate.passes query.predicate? entry.2 = true

/-- What a call of a query leaves: a match if it succeeds or there was one before, and then no more records than there were. -/
structure Upserted {α : Type} (query : FindOneQuery) (start : Memory) (outcome : Outcome α) (after : Memory) : Prop where
  matched : ((∃ a, outcome = .ok a) ∨ start.Matched query) → after.Matched query
  length : start.Matched query → (after.tableOf query.className).length = (start.tableOf query.className).length

section Attempt

theorem upserted_of_same {α : Type} {after : Memory} (hsame : after.tableOf query.className = memory.tableOf query.className)
    (failure : Failure) : Upserted query memory (.error failure : Outcome α) after := by
  refine ⟨fun h => ?_, fun _ => congrArg List.length hsame⟩
  rw [Matched, hsame]
  exact h.resolve_left nofun

variable (hpinned : Pinned query)

include hpinned

theorem upserted_replaced {α : Type} {outcome : Outcome α} {after : Memory} {id : String} {before updated : Fields} {stamp : Value}
    (hentry : (id, before) ∈ matching (memory.tableOf query.className) query.predicate?)
    (hupdated : applyUpdates query.update before = .ok updated)
    (hafter : after.tableOf query.className = OrderedMap.insert (memory.tableOf query.className) id
      (OrderedMap.insert updated FieldName.physicalUpdatedAt stamp)) : Upserted query memory outcome after := by
  obtain ⟨hthere, hpasses⟩ := mem_matching_iff.mp hentry
  refine ⟨fun _ => ?_, fun _ => ?_⟩
  · rw [Matched, hafter]
    exact ⟨_, OrderedMap.mem_insert_self _ _ _, hpinned.passes_updated hpasses hupdated stamp⟩
  · rw [hafter]
    exact OrderedMap.length_insert_of_mem (OrderedMap.mem_keys_iff.mpr ⟨before, hthere⟩) _

theorem upserted_inserted {α : Type} {outcome : Outcome α} {after : Memory} {id : String} {seed : Fields} {stamp : Value}
    (hnone : ¬memory.Matched query) (hseed : query.upsertSeed = .ok seed)
    (hid : ∀ text, OrderedMap.get? seed FieldName.physicalId = some (.string text) → id = text)
    (hafter : after.tableOf query.className = OrderedMap.insert (memory.tableOf query.className) id
      (Fields.stamped (.string id) stamp (OrderedMap.filter (fun key _ => !FieldName.isReserved key) seed))) :
    Upserted query memory outcome after := by
  refine ⟨fun _ => ?_, fun h => absurd h hnone⟩
  rw [Matched, hafter]
  exact ⟨_, OrderedMap.mem_insert_self _ _ _, hpinned.passes_stamped hseed hid stamp⟩

theorem upserted_upsertOnce (memory : Memory) : Ends (upsertOnce query) memory (Upserted query memory) := by
  refine ends_bind (ends_now.mpr ?_)
  refine ends_bind (ends_openSame fun opened hopened => ?_)
  have hsame : opened.tableOf query.className = memory.tableOf query.className := hopened.records query.className
  refine ends_bind (ends_replaceMatch ?none (fun failure _ => upserted_of_same hsame failure) ?some)
  case none =>
    intro hall
    have hnone : ¬memory.Matched query := by
      rintro ⟨entry, hentry, hpasses⟩
      exact Bool.false_ne_true ((hall entry hentry).symm.trans hpasses)
    refine ends_bind (ends_lift.mpr ?_)
    cases hseed : query.upsertSeed with
    | error failure => exact upserted_of_same hsame failure
    | ok seed =>
      refine ends_bind (ends_seedDrawn fun id drawn hid hdrawn => ?_)
      have hdrawn : drawn.tableOf query.className = memory.tableOf query.className := by
        rcases hdrawn with rfl | rfl <;> exact hsame
      refine ends_bind (ends_insertRecord (fun _ => upserted_of_same hdrawn _) fun _ => ?_)
      exact ends_insertedImage fun _ => upserted_inserted hpinned hnone hseed hid (tableOf_setTable_self rfl)
  case some =>
    rintro id before updated _ image hentry hupdated rfl _
    exact ends_returned fun _ => upserted_replaced hpinned hentry hupdated (tableOf_setTable_self rfl)

end Attempt

section Calls

variable (hpins : Pins query) (patience : Nat)

include hpins

/-- Attempts that were lost leave a match where there was one, and so a call leaves what its last attempt leaves. -/
theorem upserted_perform (memory : Memory) :
    Ends (perform patience (.upsert query)) memory (Upserted query.toPhysical memory) := by
  have hfailed (failure : Failure) : Upserted query.toPhysical memory (.error failure : Outcome (Option Object)) memory :=
    upserted_of_same rfl failure
  refine ends_check hfailed fun _ => ends_check hfailed fun hnames => ends_bind (ends_lift.mpr ?_)
  cases query.toPhysical.upsertSeed with
  | error failure => exact hfailed failure
  | ok seed =>
    let may (current : Memory) : Prop := memory.Matched query.toPhysical → current.Matched query.toPhysical ∧
      (current.tableOf query.className).length = (memory.tableOf query.className).length
    refine ends_retryFrom may (fun current hmay => ?_) (fun failure after hlost hmatched => ?_) _ 0 fun hmatched => ⟨hmatched, rfl⟩
    · refine (upserted_upsertOnce (hpins.toPhysical hnames) current).mono fun outcome after hattempt => ⟨fun h => ?_, fun h => ?_⟩
      · exact hattempt.matched (h.imp_right fun hmatched => (hmay hmatched).1)
      · exact (hattempt.length (hmay h).1).trans (hmay h).2
    · exact ⟨hlost.matched (.inr hmatched), hlost.length hmatched⟩

/-- The state after a number of calls, whatever came of them. -/
def afterUpserts (patience : Nat) (query : FindOneQuery) : Nat → Memory → Memory
  | 0, memory => memory
  | times + 1, memory => afterUpserts patience query times ((perform patience (.upsert query)).run.run memory).2

/-- Where there is a match, no number of calls changes the number of records. -/
theorem length_afterUpserts (times : Nat) (h : memory.Matched query.toPhysical) :
    ((afterUpserts patience query times memory).tableOf query.className).length = (memory.tableOf query.className).length := by
  induction times generalizing memory with
  | zero => rfl
  | succ times ih =>
    have hcall : Upserted query.toPhysical memory ((perform patience (.upsert query)).run.run memory).1
        ((perform patience (.upsert query)).run.run memory).2 := upserted_perform hpins patience memory
    exact (ih (hcall.matched (.inr h))).trans (hcall.length h)

end Calls

theorem count_of_matched (patience : Nat) (hvalid : query.validate = .ok ()) (h : memory.Matched query.toPhysical) :
    ∃ number : Nat, 0 < number ∧
      (perform patience (.count { className := query.className, filters := query.filters })).run.run memory = (.ok number, memory) := by
  obtain ⟨entry, hentry, hpasses⟩ := h
  obtain ⟨table, htable⟩ : ∃ table, OrderedMap.get? memory.tables query.className = some table := by
    cases htable : OrderedMap.get? memory.tables query.className with
    | none =>
      rw [show query.toPhysical.className = query.className from rfl, tableOf_of_missing htable] at hentry
      cases hentry
    | some table => exact ⟨table, rfl⟩
  obtain rfl := tableOf_of_get? htable
  let counted : FindQuery := FindQuery.toPhysical { className := query.className, filters := query.filters }
  have hselected : (selectEntries (memory.tableOf query.className) counted).Perm
      (matching (memory.tableOf query.className) query.toPhysical.predicate?) := selectEntries_perm rfl rfl
  refine ⟨(select (memory.tableOf query.className) counted).length, ?_, ?_⟩
  · rw [select, List.length_map, hselected.length_eq]
    exact List.length_pos_of_mem (mem_matching_iff.mpr ⟨hentry, hpasses⟩)
  · refine run_eq_of_ends (ends_valid hvalid ?_)
    refine ends_bind (ends_table?.mpr ?_)
    rw [htable]
    rfl

theorem validate_of_upsert_ok (patience : Nat) {after : Memory} {object? : Option Object}
    (h : (perform patience (.upsert query)).run.run memory = (.ok object?, after)) : query.validate = .ok () := by
  cases hvalid : query.validate with
  | ok => rfl
  | error failure =>
    rw [perform, hvalid] at h
    cases h

/-- Once an update-or-insert of fields fixed by its filters has succeeded, a record matches its filters, and to repeat it adds no record to the class, whether it succeeds or fails. -/
theorem upsert_inserts_once (patience : Nat) (hpins : Pins query) {after : Memory} {object? : Option Object}
    (h : (perform patience (.upsert query)).run.run memory = (.ok object?, after)) :
    (∃ entry ∈ after.tableOf query.className, Predicate.passes query.toPhysical.predicate? entry.2 = true) ∧
      (∃ number : Nat, 0 < number ∧
        (perform patience (.count { className := query.className, filters := query.filters })).run.run after = (.ok number, after)) ∧
      ∀ times, ((afterUpserts patience query times after).tableOf query.className).length =
        (after.tableOf query.className).length := by
  have hcall : Upserted query.toPhysical memory ((perform patience (.upsert query)).run.run memory).1
      ((perform patience (.upsert query)).run.run memory).2 := upserted_perform hpins patience memory
  rw [h] at hcall
  have hmatched : after.Matched query.toPhysical := hcall.matched (.inl ⟨object?, rfl⟩)
  exact ⟨hmatched, count_of_matched patience (validate_of_upsert_ok patience h) hmatched, fun times => length_afterUpserts hpins patience times hmatched⟩

/-- An upsert of a second dog, with an equality for its name and one for its id. -/
def secondDog : FindOneQuery where
  className := "Dog"
  filters := [.all [.compare .equal (.literal (.string "Max")) (.key "name")], Key.id.eq (.string "M")]
  update := [("visits", .increment (.integer 1))]
  setOnInsert := [("color", .string "brown")]

theorem pins_secondDog : Pins secondDog where
  equalities := rfl
  distinct := by decide
  names := List.forall_mem_cons.mpr ⟨.inl (by decide), List.forall_mem_cons.mpr ⟨.inr ⟨rfl, "M", rfl⟩, nofun⟩⟩
  values := by decide
  separate := by decide

theorem secondDog_inserts_once :
    ∃ object? after, (perform 2 (.upsert secondDog)).run.run oneDog = (.ok object?, after) ∧ (after.tableOf "Dog").length = 2 ∧
      ∀ times, ((afterUpserts 2 secondDog times after).tableOf "Dog").length = 2 := by
  have hrun : ∃ object? after, (perform 2 (.upsert secondDog)).run.run oneDog = (.ok object?, after) ∧ (after.tableOf "Dog").length = 2 :=
    ⟨_, _, rfl, rfl⟩
  obtain ⟨object?, after, hrun, htwo⟩ := hrun
  exact ⟨object?, after, hrun, htwo, fun times => ((upsert_inserts_once 2 pins_secondDog hrun).2.2 times).trans htwo⟩

end Memory

end ObjectStore
