import ObjectStore.Proofs.Memory.Results

/-!
# What a write touches

An update of one record and its deletion are about the record that `first` finds, and a deletion of all matches is about what `count` counts. The rest of the class keeps its records and their order, and no other class is touched.
-/

namespace ObjectStore

theorem Returning.image_cases {α : Type} {property : α → Prop} {old new : α} (returning : Returning) (hold : property old)
    (hnew : property new) : property (returning.image old new) := by
  cases returning with
  | before => exact hold
  | after => exact hnew

namespace Memory

/-- Whether the records of one class are now those of a table, while all classes are still there and the others are as they were. -/
structure Only (start after : Memory) (className : String) (table : Table) : Prop where
  table : after.tableOf className = table
  others : ∀ other, other ≠ className → OrderedMap.get? after.tables other = OrderedMap.get? start.tables other
  classes : OrderedMap.keys after.tables = OrderedMap.keys start.tables

section Only

variable {start after : Memory} {className : String} {table : Table}

theorem only_same (h : after.tables = start.tables) : Only start after className (start.tableOf className) := by
  refine ⟨tableOf_congr h className, fun other _ => ?_, ?_⟩ <;> rw [h]

theorem mem_keys_of_record? {id : String} {record : Fields} (h : start.record? className id = some record) :
    className ∈ OrderedMap.keys start.tables := by
  by_contra hmissing
  rw [record?, tableOf_of_missing (OrderedMap.get?_eq_none_iff.mpr hmissing)] at h
  cases h

theorem only_setTable (hclass : className ∈ OrderedMap.keys start.tables)
    (h : after.tables = OrderedMap.insert start.tables className table) : Only start after className table := by
  refine ⟨tableOf_setTable_self h, fun other hother => ?_, ?_⟩
  · rw [h, OrderedMap.get?_insert_of_ne (Ne.symm hother)]
  · rw [h, OrderedMap.keys_insert_of_mem hclass]

end Only

/-! ### The first match -/

/-- The record that a query for one record is about, with its id. -/
def firstMatch? (memory : Memory) (query : FindOneQuery) : Option (String × Fields) :=
  (selectEntries (memory.tableOf query.className) query.toPhysical.asFind).head?

section First

variable {patience : Nat} {memory : Memory} (h : Reachable patience memory) {query : FindOneQuery} {entry : String × Fields}

theorem record?_of_firstMatch? (h : memory.Distinct) (hfirst : memory.firstMatch? query = some entry) :
    memory.record? query.className entry.1 = some entry.2 :=
  OrderedMap.get?_of_mem (h.tableOf query.className) (mem_of_mem_selectEntries (List.mem_of_head? hfirst))

theorem selectEntries_eq_firstMatch? (memory : Memory) (query : FindOneQuery) :
    selectEntries (memory.tableOf query.className) query.toPhysical.asFind = (memory.firstMatch? query).toList := by
  rw [firstMatch?, selectEntries_eq_page]
  show (List.take 1 _) = (List.take 1 _).head?.toList
  cases List.drop query.toPhysical.asFind.skip _ <;> rfl

theorem run_firstMatch (hvalid : query.validate = .ok ()) :
    (perform patience (.first query.asFind)).run.run memory =
      (match memory.firstMatch? query with
        | none => .ok none
        | some entry => (Object.ofRecord query.className (project query.toPhysical.includes entry.2)).map some, memory) := by
  refine (@run_first memory query.asFind hvalid patience).trans (congrArg (·, memory) ?_)
  have hselect : selectObjects query.className query.toPhysical.asFind (memory.tableOf query.className) =
      (memory.firstMatch? query).toList.mapM fun entry =>
        Object.ofRecord query.className (project query.toPhysical.includes entry.2) := by
    rw [selectObjects, selectEntries_eq_firstMatch?]
    rfl
  refine (congrArg (Except.map List.head?) hselect).trans ?_
  cases memory.firstMatch? query with
  | none => rfl
  | some entry =>
    rw [Option.toList_some, Outcome.mapM_cons]
    dsimp only
    cases Object.ofRecord query.className (project query.toPhysical.includes entry.2) <;> rfl

/-- Whether `first` answers a query with a stored record. -/
structure Finds (patience : Nat) (memory : Memory) (query : FindOneQuery) (entry : String × Fields) (object : Object) : Prop where
  first : (perform patience (.first query.asFind)).run.run memory = (.ok (some object), memory)
  stored : memory.record? query.className entry.1 = some entry.2
  shown : Shows query.className query.includes entry object

theorem run_first_of_none (hvalid : query.validate = .ok ()) (hfirst : memory.firstMatch? query = none) :
    (perform patience (.first query.asFind)).run.run memory = (.ok none, memory) := by
  rw [run_firstMatch hvalid, hfirst]

include h

theorem exists_read (hfirst : memory.firstMatch? query = some entry) :
    ∃ object, Object.ofRecord query.className (project query.toPhysical.includes entry.2) = .ok object ∧
      Shows query.className query.includes entry object := by
  have hstored := record?_of_firstMatch? h.distinct hfirst
  exact exists_shows (h.kept.record hstored) (h.distinct_record hstored) query.className query.includes

theorem finds_of_read (hvalid : query.validate = .ok ()) (hfirst : memory.firstMatch? query = some entry) {object : Object}
    (hread : Object.ofRecord query.className (project query.toPhysical.includes entry.2) = .ok object)
    (hshown : Shows query.className query.includes entry object) : Finds patience memory query entry object := by
  refine ⟨?_, record?_of_firstMatch? h.distinct hfirst, hshown⟩
  rw [run_firstMatch hvalid, hfirst]
  dsimp only
  rw [hread]
  rfl

end First

/-! ### Updating one record -/

/-- Whether a record is what an update makes of another one: the updated fields and the second stamp, which is the last one that was taken, and no other field differs. -/
structure Rewrites (last : Int) (query : FindOneQuery) (before record : Fields) : Prop where
  updated : ∀ key update, OrderedMap.get? query.update key = some update →
    update.apply (OrderedMap.get? before key) = .ok (OrderedMap.get? record key)
  stamped : OrderedMap.get? record FieldName.physicalUpdatedAt = some (.timestamp (WriteClock.micros.instant last))
  kept : ∀ key, key ∉ OrderedMap.keys query.update → key ≠ FieldName.physicalUpdatedAt →
    OrderedMap.get? record key = OrderedMap.get? before key

/-- What an update that succeeds has done: it replaced the record that `first` finds and shows the wanted image, or there is none and nothing changed. -/
def UpdatesFirst (patience : Nat) (memory : Memory) (query : FindOneQuery) : Option Object → Memory → Prop
  | none, after => (perform patience (.first query.asFind)).run.run memory = (.ok none, memory) ∧ after.tables = memory.tables
  | some object, after => ∃ id before record found, Finds patience memory query (id, before) found ∧
    Rewrites after.sources.last query before record ∧
    Only memory after query.className
      ((memory.tableOf query.className).map fun entry => if entry.1 = id then (id, record) else entry) ∧
    Shows query.className query.includes (id, query.returning.image before record) object

section Update

variable {patience : Nat} {memory : Memory} {query : FindOneQuery} (hupdate : query.update.Distinct)
  (hplain : ∀ name, FieldName.isReserved name = true → name ∉ OrderedMap.keys query.update)

include hupdate hplain

theorem rewrites_of_applyUpdates {before updated : Fields} (hbefore : OrderedMap.Distinct before)
    (h : applyUpdates query.update before = .ok updated) (last : Int) :
    Rewrites last query before
      (OrderedMap.insert updated FieldName.physicalUpdatedAt (.timestamp (WriteClock.micros.instant last))) := by
  have happlied := applyTo_of_applyUpdates h
  refine ⟨fun key update hkey => ?_, OrderedMap.get?_insert_self _ _ _, fun key hkey hne => ?_⟩
  · have hne : FieldName.physicalUpdatedAt ≠ key := by
      rintro rfl
      exact hplain _ (by decide) (OrderedMap.mem_keys_iff.mpr ⟨update, OrderedMap.mem_of_get? hkey⟩)
    rw [OrderedMap.get?_insert_of_ne hne]
    exact Updates.apply_of_applyTo hupdate hbefore happlied hkey
  · rw [OrderedMap.get?_insert_of_ne (Ne.symm hne)]
    exact Updates.get?_applyTo_of_not_mem happlied hkey

/-- Once the first match is replaced by what the updates make of it, all that is left to do is to show one of both. -/
theorem exists_updatesFirst (h : Reachable patience memory) (hvalid : query.validate = .ok ()) {id : String} {before updated : Fields}
    (hfirst : memory.firstMatch? query = some (id, before)) (happlied : applyUpdates query.update before = .ok updated)
    {after : Memory} (hlater : memory.sources.last ≤ after.sources.last) {record : Fields}
    (hrecord : record = OrderedMap.insert updated FieldName.physicalUpdatedAt
      (.timestamp (WriteClock.micros.instant after.sources.last)))
    (hafter : after.tables =
      OrderedMap.insert memory.tables query.className (OrderedMap.insert (memory.tableOf query.className) id record)) :
    ∃ object, Object.ofRecord query.className (project query.toPhysical.includes (query.returning.image before record)) = .ok object ∧
      UpdatesFirst patience memory query (some object) after := by
  subst hrecord
  have hstored : memory.record? query.className id = some before := record?_of_firstMatch? h.distinct hfirst
  have hbefore := h.kept.record hstored
  have hdistinct := h.distinct_record hstored
  have hmember := OrderedMap.mem_of_get? hstored
  have hkeptAfter := (hbefore.applyUpdates hplain happlied).stamp hlater
  have hdistinctAfter := OrderedMap.distinct_insert (Updates.distinct_applyTo (applyTo_of_applyUpdates happlied) hdistinct)
    FieldName.physicalUpdatedAt (.timestamp (WriteClock.micros.instant after.sources.last))
  obtain ⟨found, hread, hfound⟩ := exists_read h hfirst
  obtain ⟨object, hobject, hshown⟩ := @exists_shows after.sources.last (id, query.returning.image before _)
    (query.returning.image_cases (hbefore.mono hlater) hkeptAfter) (query.returning.image_cases hdistinct hdistinctAfter)
    query.className query.includes
  refine ⟨object, hobject, id, before, _, found, finds_of_read h hvalid hfirst hread hfound,
    rewrites_of_applyUpdates hupdate hplain hdistinct happlied _, ?_, hshown⟩
  rw [← OrderedMap.insert_eq_map (h.distinct.tableOf query.className) (OrderedMap.mem_keys_iff.mpr ⟨before, hmember⟩)]
  exact only_setTable (mem_keys_of_record? hstored) hafter

end Update

theorem updatesFirst_perform {patience : Nat} {memory : Memory} (h : Reachable patience memory) {query : FindOneQuery}
    (hupdate : query.update.Distinct) :
    Ends (perform patience (.update query)) memory (Gives (UpdatesFirst patience memory query)) := by
  refine ends_check gives_error fun hvalid => ends_check gives_error fun hnames => ?_
  refine ends_bind (ends_now_kept h.kept fun _ hlater _ => ends_bind (ends_table?.mpr ?_))
  have hnames := FieldName.rejectReserved_eq_ok_iff.mp hnames
  have hphysical : query.toPhysical.update = query.update :=
    OrderedMap.mapKeys_eq_self hupdate fun key hkey => FieldName.toPhysical_of_not_reserved (hnames key hkey)
  have hplain (name : String) (hname : FieldName.isReserved name = true) : name ∉ OrderedMap.keys query.update := fun hmem => by
    rw [hnames name hmem] at hname
    cases hname
  have hunmatched (hfirst : memory.firstMatch? query = none) : UpdatesFirst patience memory query none (stamped memory) :=
    ⟨run_first_of_none hvalid hfirst, rfl⟩
  cases htable : OrderedMap.get? (stamped memory).tables query.className with
  | none =>
    have hempty : memory.tableOf query.className = [] := tableOf_of_missing htable
    refine gives_ok (hunmatched ?_)
    rw [firstMatch?, hempty, selectEntries_nil, List.head?_nil]
  | some table =>
    obtain rfl : memory.tableOf query.className = table := tableOf_of_get? htable
    refine ends_bind (ends_replaceHead (fun hfirst => gives_ok (hunmatched hfirst)) (fun failure _ => gives_error failure) ?_)
    rintro id before updated record image hfirst happlied hrecord rfl
    rw [hphysical] at happlied
    obtain ⟨object, hobject, hupdates⟩ : ∃ object,
        Object.ofRecord query.className (project query.toPhysical.includes (query.returning.image before record)) = .ok object ∧
          UpdatesFirst patience memory query (some object) { stamped memory with
            tables := OrderedMap.insert memory.tables query.className (OrderedMap.insert (memory.tableOf query.className) id record) } := by
      refine exists_updatesFirst hupdate hplain h hvalid hfirst happlied ?_ ?_ rfl
      · exact hlater
      · exact hrecord
    refine ends_bind (ends_lift.mpr ?_)
    show andNext _ _ (Object.ofRecord query.className (project query.toPhysical.includes (query.returning.image before record))) _
    rw [hobject]
    exact gives_ok hupdates

/-! ### Deleting -/

/-- What a deletion of one record has done: it removed the record that `first` finds and shows it as `first` does, or there is none and nothing changed. -/
def RemovesFirst (patience : Nat) (memory : Memory) (query : FindOneQuery) : Option Object → Memory → Prop
  | none, after => (perform patience (.first query.asFind)).run.run memory = (.ok none, memory) ∧ after = memory
  | some object, after => ∃ id before, Finds patience memory query (id, before) object ∧
    Only memory after query.className (OrderedMap.filter (fun other _ => other != id) (memory.tableOf query.className))

theorem removesFirst_perform {patience : Nat} {memory : Memory} (h : Reachable patience memory) {query : FindOneQuery}
    (hvalid : query.validate = .ok ()) :
    Ends (perform patience (.delete query)) memory fun outcome after =>
      ∃ result, outcome = .ok result ∧ RemovesFirst patience memory query result after := by
  refine ends_valid hvalid (ends_bind (ends_table?.mpr ?_))
  cases htable : OrderedMap.get? memory.tables query.className with
  | none =>
    have hempty : memory.tableOf query.className = [] := tableOf_of_missing htable
    refine ⟨none, rfl, run_first_of_none hvalid ?_, rfl⟩
    rw [firstMatch?, hempty, selectEntries_nil, List.head?_nil]
  | some table =>
    obtain rfl := tableOf_of_get? htable
    simp only [andNext]
    cases hfirst : memory.firstMatch? query with
    | none =>
      rw [firstMatch?] at hfirst
      simp only [hfirst]
      exact ⟨none, rfl, run_first_of_none hvalid hfirst, rfl⟩
    | some entry =>
      obtain ⟨object, hread, hshown⟩ := exists_read h hfirst
      have hfinds := finds_of_read h hvalid hfirst hread hshown
      rw [firstMatch?] at hfirst
      simp only [hfirst]
      refine ends_bind (ends_setTable.mpr ?_)
      simp only [andNext]
      refine ends_bind (ends_lift.mpr ?_)
      rw [hread]
      refine ⟨some object, rfl, entry.1, entry.2, hfinds, ?_⟩
      rw [← OrderedMap.erase_eq_filter (h.distinct.tableOf query.className)]
      exact only_setTable (mem_keys_of_record? hfinds.stored) rfl

/-- What a deletion of all matches has done: the matches are gone whatever the page of the query, and counting them again gives none. -/
structure RemovesAll (patience : Nat) (memory : Memory) (query : FindQuery) (after : Memory) : Prop where
  only : Only memory after query.className
    (OrderedMap.filter (fun _ record => !query.filters.all fun predicate => predicate.toPhysical.holds record)
      (memory.tableOf query.className))
  count : ∀ skip limit, (perform patience (.count { query with skip, limit })).run.run after = (.ok (0 : Nat), after)

/-- The ids of all matches are those of the records that satisfy all filters. -/
theorem contains_matches {memory : Memory} (h : memory.Distinct) (query : FindQuery) {entry : String × Fields}
    (hentry : entry ∈ memory.tableOf query.className) :
    ((memory.sortedMatches query).map Prod.fst).contains entry.1 =
      query.filters.all fun predicate => predicate.toPhysical.holds entry.2 := by
  have hperm : (memory.sortedMatches query).Perm (memory.matchesOf query) := insertionSort_perm _ _
  rw [Bool.eq_iff_iff, List.contains_iff_mem, List.mem_map]
  constructor
  · rintro ⟨other, hother, same⟩
    obtain ⟨hstored, hpasses⟩ := List.mem_filter.mp (hperm.subset hother)
    have hrecord : other.2 = entry.2 := by
      have hget := OrderedMap.get?_of_mem (h.tableOf query.className) hentry
      rw [← same, OrderedMap.get?_of_mem (h.tableOf query.className) hstored] at hget
      exact Option.some.inj hget
    rw [← hrecord]
    exact hpasses
  · intro hpasses
    exact ⟨entry, hperm.mem_iff.mpr (List.mem_filter.mpr ⟨hentry, hpasses⟩), rfl⟩

theorem run_count_of_none {patience : Nat} {after : Memory} {query : FindQuery} (hvalid : query.validate = .ok ())
    (hnone : after.matchesOf query = []) (skip : Nat) (limit : Option Nat) :
    (perform patience (.count { query with skip, limit })).run.run after = (.ok (0 : Nat), after) := by
  refine (@run_count patience after { query with skip, limit } hvalid).trans (congrArg (·, after) (congrArg Except.ok ?_))
  have hempty : after.sortedMatches query = [] := by
    rw [sortedMatches, hnone]
    rfl
  have hselect := selectEntries_page after query skip limit
  rw [hempty] at hselect
  show ((selectEntries (after.tableOf query.className) { query.toPhysical with skip, limit }).map Prod.fst).length = 0
  rw [hselect]
  cases limit <;> simp [page]

theorem removesAll_perform {patience : Nat} {memory : Memory} (h : Reachable patience memory) {query : FindQuery}
    (hvalid : query.validate = .ok ()) :
    Ends (perform patience (.deleteAll query)) memory fun outcome after =>
      outcome = .ok (memory.matchesOf query).length ∧ RemovesAll patience memory query after := by
  refine ends_valid hvalid (ends_bind (ends_table?.mpr ?_))
  have hremoved {after : Memory} (honly : Only memory after query.className
      (OrderedMap.filter (fun _ record => !query.filters.all fun predicate => predicate.toPhysical.holds record)
        (memory.tableOf query.className))) : RemovesAll patience memory query after := by
    refine ⟨honly, run_count_of_none hvalid (List.filter_eq_nil_iff.mpr fun entry hentry => ?_)⟩
    rw [honly.table] at hentry
    exact Bool.not_eq_true _ ▸ Bool.not_eq_true' _ ▸ (List.mem_filter.mp hentry).2
  cases htable : OrderedMap.get? memory.tables query.className with
  | none =>
    have hempty : memory.tableOf query.className = [] := tableOf_of_missing htable
    refine ⟨?_, hremoved ?_⟩
    · rw [matchesOf, hempty]
      rfl
    · have hsame : Only memory memory query.className (memory.tableOf query.className) := only_same rfl
      rw [hempty] at hsame ⊢
      exact hsame
  | some table =>
    obtain rfl := tableOf_of_get? htable
    have hids : select (memory.tableOf query.className) { query.toPhysical with skip := 0, limit := none } =
        (memory.sortedMatches query).map Prod.fst := by
      rw [select, selectEntries_page]
      rfl
    have hrest : ((memory.sortedMatches query).map Prod.fst).foldl OrderedMap.erase (memory.tableOf query.className) =
        OrderedMap.filter (fun _ record => !query.filters.all fun predicate => predicate.toPhysical.holds record)
          (memory.tableOf query.className) := by
      rw [OrderedMap.foldl_erase_eq_filter (h.distinct.tableOf query.className)]
      exact List.filter_congr fun entry hentry => congrArg (!·) (contains_matches h.distinct query hentry)
    simp only [andNext, hids, hrest]
    refine ⟨congrArg Except.ok ?_, hremoved (only_setTable ?_ rfl)⟩
    · rw [List.length_map]
      exact (insertionSort_perm _ _).length_eq
    · exact OrderedMap.mem_keys_iff.mpr ⟨_, OrderedMap.mem_of_get? htable⟩

/-- In every reachable state, an update of one record and its deletion change the record that `first` finds and no other one, and a deletion of all matches removes these and no other record. -/
theorem writes_touch_matches {patience : Nat} {memory : Memory} (h : Reachable patience memory) :
    (∀ query result after, query.update.Distinct → (perform patience (.update query)).run.run memory = (.ok result, after) →
      UpdatesFirst patience memory query result after) ∧
    (∀ query, query.validate = .ok () → ∃ result after,
      (perform patience (.delete query)).run.run memory = (.ok result, after) ∧ RemovesFirst patience memory query result after) ∧
    ∀ query, query.validate = .ok () → ∃ after,
      (perform patience (.deleteAll query)).run.run memory = (.ok (memory.matchesOf query).length, after) ∧
        RemovesAll patience memory query after := by
  refine ⟨fun query result after hupdate hrun => ?_, fun query hvalid => ?_, fun query hvalid => ?_⟩
  · exact ((updatesFirst_perform h hupdate).of_run hrun).given result rfl
  · obtain ⟨result, hresult, hremoves⟩ := removesFirst_perform h hvalid
    exact ⟨result, _, Prod.ext hresult rfl, hremoves⟩
  · obtain ⟨hcount, hremoves⟩ := removesAll_perform h hvalid
    exact ⟨_, Prod.ext hcount rfl, hremoves⟩

/-- The dog that comes first by its name gets another name. -/
def renamedFirst : FindOneQuery where
  className := "Dog"
  sort := [("name", .ascending)]
  update := [("name", .set (.string "Zoe"))]

theorem renamedFirst_touches : ∃ object after, (perform 2 (.update renamedFirst)).run.run twoDogs = (.ok (some object), after) ∧
    object.id = some "B" ∧ UpdatesFirst 2 twoDogs renamedFirst (some object) after := by
  have hdistinct : OrderedMap.Distinct renamedFirst.update := by
    rw [OrderedMap.Distinct]
    decide
  exact ⟨_, _, rfl, rfl, (writes_touch_matches reachable_twoDogs).1 renamedFirst _ _ hdistinct rfl⟩

end Memory

end ObjectStore
