import ObjectStore.Proofs.Memory.Saved
import ObjectStore.Proofs.Memory.Sorting

/-!
# What a query returns

A query without paging returns each match once, in the order of the sort keys and, where these tie, in the order of insertion. The order is described here without the comparison that the sort uses. Every reading operation then shows a part of that one list: a page is a stretch of it, a count the length of a page, the first match the head of a page, and a visit goes along a page until the visitor fails.
-/

namespace ObjectStore

namespace Memory

/-! ### The order of records -/

/-- Whether one record comes before another one by a field: one without a value comes first, and values come in their order. -/
def FieldBelow (key : String) (a b : Fields) : Prop :=
  match present? a key, present? b key with
  | none, some _ => True
  | some value, some other => value.Below other
  | _, none => False

def DirectedBelow : SortOrder → String → Fields → Fields → Prop
  | .ascending, key, a, b => FieldBelow key a b
  | .descending, key, a, b => FieldBelow key b a

/-- Whether one record comes before another one by some sort keys, of which earlier ones take precedence. -/
def RecordBelow : SortKeys → Fields → Fields → Prop
  | [], _, _ => False
  | (key, direction) :: rest, a, b =>
    DirectedBelow direction key a b ∨ ¬DirectedBelow direction key b a ∧ RecordBelow rest a b

section Order

variable {records : List Fields} {a b : Fields} (ha : a ∈ records) (hb : b ∈ records)

include ha hb

theorem compareUnder_eq_lt_iff {key : String} (h : Value.Clear (presents key records)) :
    compareUnder key a b = .lt ↔ FieldBelow key a b := by
  rw [compareUnder_eq, FieldBelow]
  cases hpa : present? a key with
  | none => cases present? b key <;> simp
  | some value =>
    cases hpb : present? b key with
    | none => simp
    | some other =>
      have hvalue := mem_presents ha hpa
      show compareValues value other = .lt ↔ value.Below other
      rw [← h.compare?_eq_lt_iff hvalue (mem_presents hb hpb) (isNull_of_mem_presents hvalue)]
      refine ⟨compare?_of_compareValues_lt, fun hless => ?_⟩
      rw [compareValues, hless, Option.getD_some]

theorem directed_eq_lt_iff {key : String} (h : Value.Clear (presents key records)) (direction : SortOrder) :
    directed direction (compareUnder key a b) = .lt ↔ DirectedBelow direction key a b := by
  cases direction with
  | ascending => exact compareUnder_eq_lt_iff ha hb h
  | descending =>
    rw [directed, ← compareUnder_swap key a b]
    exact compareUnder_eq_lt_iff hb ha h

theorem compareRecords_eq_lt_iff {sort : SortKeys} (h : ∀ entry ∈ sort, Value.Clear (presents entry.1 records)) :
    compareRecords sort a b = .lt ↔ RecordBelow sort a b := by
  induction sort with
  | nil => simp [compareRecords, RecordBelow]
  | cons entry sort ih =>
    obtain ⟨key, direction⟩ := entry
    have hclear := h (key, direction) List.mem_cons_self
    have hless := directed_eq_lt_iff ha hb hclear direction
    have hmore := directed_eq_lt_iff hb ha hclear direction
    have hturned : directed direction (compareUnder key b a) = (directed direction (compareUnder key a b)).swap := by
      rw [compareUnder_swap key a b]
      cases direction <;> rfl
    rw [RecordBelow, ← hless, ← hmore, ← ih fun later hlater => h later (List.mem_cons_of_mem _ hlater), hturned]
    show (directed direction (compareUnder key a b)).then (compareRecords sort a b) = .lt ↔ _
    cases directed direction (compareUnder key a b) <;> simp

end Order

/-! ### Pages -/

/-- The items that are left when some are skipped and no more than a limit are taken. -/
def page {α : Type} (skip : Nat) (limit : Option Nat) (items : List α) : List α :=
  match limit with
  | some limit => (items.drop skip).take limit
  | none => items.drop skip

theorem page_append_page {α : Type} (skip size : Nat) (limit : Option Nat) (items : List α) :
    page skip (some size) items ++ page (skip + size) limit items = page skip (limit.map (size + ·)) items := by
  cases limit with
  | none =>
    show (items.drop skip).take size ++ items.drop (skip + size) = items.drop skip
    rw [← List.drop_drop, List.take_append_drop]
  | some limit =>
    show (items.drop skip).take size ++ (items.drop (skip + size)).take limit = (items.drop skip).take (size + limit)
    rw [← List.drop_drop, List.take_add]

theorem selectEntries_eq_page (table : Table) (query : FindQuery) :
    selectEntries table query = page query.skip query.limit
      (insertionSort (fun x y => compareRecords query.sort x.2 y.2) (matching table query.predicate?)) := by
  rw [selectEntries]
  cases query.limit <;> rfl

theorem forall₂_page {α β : Type} {relation : α → β → Prop} {items : List α} {others : List β}
    (h : List.Forall₂ relation items others) (skip : Nat) (limit : Option Nat) :
    List.Forall₂ relation (page skip limit items) (page skip limit others) := by
  cases limit with
  | none => exact List.forall₂_drop skip h
  | some limit => exact List.forall₂_take limit (List.forall₂_drop skip h)

theorem mapM_page {α β : Type} {f : α → Outcome β} {items : List α} {results : List β} (h : items.mapM f = .ok results)
    (skip : Nat) (limit : Option Nat) : (page skip limit items).mapM f = .ok (page skip limit results) :=
  Outcome.mapM_eq_ok_iff.mpr (forall₂_page (Outcome.mapM_eq_ok_iff.mp h) skip limit)

/-! ### Visits -/

/-- A visit goes along some objects: the visitor accepts each in its turn, up to the last one or to the first at which it fails. -/
structure Visits (visitor : Visitor) (objects : List Object) (visit : Visit) : Prop where
  taken : visit.visited <+: objects
  accepted : ∀ seen object, seen ++ [object] <+: visit.visited → visitor seen object = .ok ()
  ended : (visit.visited = objects ∧ visit.result = .ok ()) ∨ ∃ object failure, visit.visited ++ [object] <+: objects ∧
    visitor visit.visited object = .error failure ∧ visit.result = .error failure

theorem visits_visit {visitor : Visitor} {visited : List Object} (items : List Object)
    (haccepted : ∀ seen object, seen ++ [object] <+: visited → visitor seen object = .ok ()) :
    Visits visitor (visited ++ items) (visitor.visit .ok visited items) := by
  induction items generalizing visited with
  | nil =>
    rw [List.append_nil]
    exact ⟨List.prefix_refl visited, haccepted, .inl ⟨rfl, rfl⟩⟩
  | cons item items ih =>
    have hnext : visited ++ [item] <+: visited ++ item :: items := ⟨items, List.append_assoc visited [item] items⟩
    cases hvisitor : visitor visited item with
    | error failure =>
      have hstops : visitor.visit .ok visited (item :: items) = { visited, result := .error failure } := by
        simp only [Visitor.visit, hvisitor]
      rw [hstops]
      exact ⟨List.prefix_append visited _, haccepted, .inr ⟨item, failure, hnext, hvisitor, rfl⟩⟩
    | ok =>
      have hgoes : visitor.visit .ok visited (item :: items) = visitor.visit .ok (visited ++ [item]) items := by
        simp only [Visitor.visit, hvisitor]
      have hlater := @ih (visited ++ [item]) fun seen object hseen => by
        rcases List.prefix_concat_iff.mp hseen with hlast | hbefore
        · obtain ⟨rfl, hobject⟩ := List.append_inj' hlast rfl
          obtain rfl := List.singleton_inj.mp hobject
          exact hvisitor
        · exact haccepted seen object hbefore
      rw [List.append_assoc, List.singleton_append] at hlater
      rw [hgoes]
      exact hlater

/-! ### Reading -/

/-- Whether an object shows what is stored under an id: the id, both stamps and the fields that are included, whichever these are. -/
structure Shows (className : String) (includes : Option NameSet) (entry : String × Fields) (object : Object) : Prop where
  className : object.className = className
  id : object.id = some entry.1
  createdAt : OrderedMap.get? entry.2 FieldName.physicalCreatedAt = object.createdAt.map .timestamp
  updatedAt : OrderedMap.get? entry.2 FieldName.physicalUpdatedAt = object.updatedAt.map .timestamp
  data : object.data =
    OrderedMap.filter (fun name _ => !FieldName.reserved.contains name && includes.all (·.contains name)) entry.2

theorem get?_project_of_reserved (includes : Option NameSet) (record : Fields) {name : String} (h : name ∈ FieldName.reserved) :
    OrderedMap.get? (project (includes.map NameSet.toPhysical) record) name = OrderedMap.get? record name := by
  cases includes with
  | none => rfl
  | some names =>
    have hincluded : names.toPhysical.contains name = true := List.contains_iff_mem.mpr (NameSet.mem_toPhysical_iff.mpr (.inl h))
    rw [Option.map_some, project, OrderedMap.get?_filter, hincluded, if_pos rfl]

section Shows

variable {last : Int} {entry : String × Fields} (hkept : KeptRecord last entry.1 entry.2)

include hkept

theorem not_isReserved_of_kept {field : String × Value} (hfield : field ∈ entry.2) (hname : field.1 ∉ FieldName.reserved) :
    FieldName.isReserved field.1 = false := by
  have hplain {own : String} (hown : own ∈ [FieldName.id, FieldName.createdAt, FieldName.updatedAt]) : field.1 ≠ own := by
    rintro rfl
    have hmissing := OrderedMap.get?_eq_none_iff.mp (hkept.aliases _ hown)
    exact hmissing (OrderedMap.mem_keys_iff.mpr ⟨field.2, hfield⟩)
  exact FieldName.not_isReserved_iff.mpr ⟨⟨hplain (by decide), hplain (by decide), hplain (by decide)⟩, hname⟩

theorem data_project (hdistinct : OrderedMap.Distinct entry.2) (includes : Option NameSet) :
    FieldName.reserved.foldl OrderedMap.erase (project (includes.map NameSet.toPhysical) entry.2) =
      OrderedMap.filter (fun name _ => !FieldName.reserved.contains name && includes.all (·.contains name)) entry.2 := by
  cases includes with
  | none =>
    rw [Option.map_none, project, OrderedMap.foldl_erase_eq_filter hdistinct]
    exact List.filter_congr fun field _ => (Bool.and_true _).symm
  | some names =>
    rw [Option.map_some, project, OrderedMap.foldl_erase_eq_filter (OrderedMap.distinct_filter hdistinct _), OrderedMap.filter,
      OrderedMap.filter, OrderedMap.filter, List.filter_filter]
    refine List.filter_congr fun field hfield => ?_
    by_cases hname : field.1 ∈ FieldName.reserved
    · rw [List.contains_iff_mem.mpr hname, Bool.not_true, Bool.false_and, Bool.false_and]
    · have hplain := not_isReserved_of_kept hkept hfield hname
      have hincluded : names.toPhysical.contains field.1 = names.contains field.1 := by
        rw [Bool.eq_iff_iff, List.contains_iff_mem, List.contains_iff_mem, NameSet.mem_toPhysical_iff]
        simp only [hname, false_or, FieldName.toPhysical_eq_iff hplain, exists_eq_right]
      rw [hincluded]
      rfl

theorem exists_shows (hdistinct : OrderedMap.Distinct entry.2) (className : String) (includes : Option NameSet) :
    ∃ object, Object.ofRecord className (project (includes.map NameSet.toPhysical) entry.2) = .ok object ∧
      Shows className includes entry object := by
  obtain ⟨object, hobject⟩ := hkept.ofRecord_project className (includes.map NameSet.toPhysical)
  obtain ⟨created, updated, -, -, -, hcreated, hupdated⟩ := hkept.stamps
  have hread := Object.readsAs_of_ofRecord hobject
  have hkeeps {name : String} (hname : name ∈ FieldName.reserved) := get?_project_of_reserved includes entry.2 hname
  obtain ⟨hobjectCreated, hobjectUpdated⟩ : object.createdAt = some (WriteClock.micros.instant created) ∧
      object.updatedAt = some (WriteClock.micros.instant updated) := by
    rw [Object.ofRecord, hkeeps (by decide), hkeeps (by decide), hkeeps (by decide), hcreated, hupdated] at hobject
    obtain ⟨id, -, hrest⟩ := Outcome.bind_eq_ok_iff.mp hobject
    obtain rfl := Except.ok.inj hrest
    exact ⟨rfl, rfl⟩
  refine ⟨object, hobject, hread.className, hread.id_eq ((hkeeps (by decide)).trans hkept.id), ?_, ?_, ?_⟩
  · rw [hcreated, hobjectCreated, Option.map_some]
  · rw [hupdated, hobjectUpdated, Option.map_some]
  · rw [hread.data, data_project hkept hdistinct]

end Shows

section Read

variable {patience : Nat} {memory : Memory} {query : FindQuery} (hvalid : query.validate = .ok ())

include hvalid

theorem run_count : (perform patience (.count query)).run.run memory =
    (.ok (select (memory.tableOf query.className) query.toPhysical).length, memory) := by
  refine run_eq_of_ends (ends_valid hvalid (ends_bind (ends_table?.mpr ?_)))
  cases htable : OrderedMap.get? memory.tables query.className with
  | none =>
    rw [tableOf_of_missing htable, select, selectEntries_nil]
    rfl
  | some table =>
    rw [tableOf_of_get? htable]
    rfl

omit hvalid in
theorem run_each {objects : List Object} (hfind : (find query).run.run memory = (.ok objects, memory)) (visitor : Visitor) :
    (perform patience (.each query visitor)).run.run memory = (.ok (visitor.visit .ok [] objects), memory) := by
  refine run_eq_of_ends (ends_bind (ends_caught.mpr ?_))
  rw [Ends, hfind]
  rfl

end Read

/-- The records of a class that satisfy all filters of a query, in the order of insertion. -/
def matchesOf (memory : Memory) (query : FindQuery) : Table :=
  OrderedMap.filter (fun _ record => query.filters.all fun predicate => predicate.toPhysical.holds record)
    (memory.tableOf query.className)

theorem matching_toPhysical (memory : Memory) (query : FindQuery) :
    matching (memory.tableOf query.className) query.toPhysical.predicate? = memory.matchesOf query := by
  refine List.filter_congr fun entry _ => ?_
  show Predicate.passes (Predicate.conjunction? query.toPhysical.filters) entry.2 = _
  rw [Predicate.passes_conjunction?, Predicate.allHold_eq_all, FindQuery.toPhysical, List.all_map]
  rfl

/-- What reading operations answer to a query, for any page of it, in terms of all matches as they are sorted and shown. -/
structure Answers (patience : Nat) (memory : Memory) (query : FindQuery) (sorted : List (String × Fields)) (objects : List Object) :
    Prop where
  /-- Each match is there, and once only. -/
  perm : sorted.Perm (memory.matchesOf query)
  once : (sorted.map Prod.fst).Nodup
  /-- Matches are in the order of the sort keys, and those that tie in the order of insertion. -/
  ordered : sorted.Pairwise fun x y => RecordBelow query.toPhysical.sort x.2 y.2 ∨
    ¬RecordBelow query.toPhysical.sort y.2 x.2 ∧ [x, y].Sublist (memory.tableOf query.className)
  /-- The sort keys are the given ones in the names of storage, unless two of them are names of one field. -/
  keys : ((OrderedMap.keys query.sort).map FieldName.toPhysical).Nodup →
    query.toPhysical.sort = query.sort.map fun entry => (FieldName.toPhysical entry.1, entry.2)
  shown : List.Forall₂ (Shows query.className query.includes) sorted objects
  find : ∀ skip limit, (perform patience (.find { query with skip, limit })).run.run memory = (.ok (page skip limit objects), memory)
  /-- Consecutive pages lose and repeat nothing. -/
  consecutive : ∀ skip size limit,
    page skip (some size) objects ++ page (skip + size) limit objects = page skip (limit.map (size + ·)) objects
  count : ∀ skip limit,
    (perform patience (.count { query with skip, limit })).run.run memory = (.ok (page skip limit objects).length, memory)
  first : ∀ skip limit,
    (perform patience (.first { query with skip, limit })).run.run memory = (.ok (page skip (some 1) objects).head?, memory)
  each : ∀ skip limit visitor, ∃ visit, Visits visitor (page skip limit objects) visit ∧
    (perform patience (.each { query with skip, limit } visitor)).run.run memory = (.ok visit, memory)

/-- All matches of a query in the order of its sort keys. -/
def sortedMatches (memory : Memory) (query : FindQuery) : List (String × Fields) :=
  insertionSort (fun x y => compareRecords query.toPhysical.sort x.2 y.2) (memory.matchesOf query)

/-- Whatever a query selects is a page of its sorted matches. -/
theorem selectEntries_page (memory : Memory) (query : FindQuery) (skip : Nat) (limit : Option Nat) :
    selectEntries (memory.tableOf query.className) { query.toPhysical with skip, limit } =
      page skip limit (memory.sortedMatches query) := by
  rw [selectEntries_eq_page, sortedMatches, ← matching_toPhysical]
  rfl

/-- Matches whose values under each sort key are of one sort come in the order of the sort keys, and otherwise in that of insertion. -/
theorem sortedMatches_ordered {memory : Memory} {query : FindQuery}
    (huniform : ∀ entry ∈ query.toPhysical.sort,
      Value.Uniform (presents entry.1 (OrderedMap.values (memory.matchesOf query)))) :
    (memory.sortedMatches query).Pairwise fun x y => RecordBelow query.toPhysical.sort x.2 y.2 ∨
      ¬RecordBelow query.toPhysical.sort y.2 x.2 ∧ [x, y].Sublist (memory.tableOf query.className) := by
  have hpreorder : Preorders (fun x y : String × Fields => compareRecords query.toPhysical.sort x.2 y.2) (memory.matchesOf query) := by
    refine Preorders.comap (preorders_compareRecords fun entry hentry => preorders_compareUnder_iff.mpr ?_)
    have hvalues := huniform entry hentry
    have horderable : Orderable (presents entry.1 (OrderedMap.values (memory.matchesOf query))) :=
      .inr ⟨fun a ha b hb => hvalues.comparable ha hb, hvalues.clear⟩
    exact horderable.preorders fun _ => isNull_of_mem_presents
  have hsorts := insertionSort_sorts hpreorder
  have hbelow {x y : String × Fields} (hx : x ∈ memory.sortedMatches query) (hy : y ∈ memory.sortedMatches query) :
      compareRecords query.toPhysical.sort x.2 y.2 = .lt ↔ RecordBelow query.toPhysical.sort x.2 y.2 :=
    compareRecords_eq_lt_iff (List.mem_map_of_mem (hsorts.perm.subset hx)) (List.mem_map_of_mem (hsorts.perm.subset hy))
      fun entry hentry => (huniform entry hentry).clear
  refine (hsorts.pairwise hpreorder).imp_of_mem fun {x y} hx hy hxy => ?_
  rw [← hbelow hx hy, ← hbelow hy hx]
  exact hxy.imp_right fun htie => ⟨htie.1, htie.2.trans List.filter_sublist⟩

theorem exists_forall₂ {α β : Type} {relation : α → β → Prop} {items : List α} (h : ∀ item ∈ items, ∃ other, relation item other) :
    ∃ others, List.Forall₂ relation items others := by
  induction items with
  | nil => exact ⟨[], .nil⟩
  | cons item items ih =>
    obtain ⟨other, hother⟩ := h item List.mem_cons_self
    obtain ⟨others, hothers⟩ := ih fun later hlater => h later (List.mem_cons_of_mem item hlater)
    exact ⟨other :: others, .cons hother hothers⟩

theorem exists_shown {patience : Nat} {memory : Memory} (h : Reachable patience memory) (query : FindQuery) :
    ∃ objects, List.Forall₂ (Shows query.className query.includes) (memory.sortedMatches query) objects ∧
      (memory.sortedMatches query).mapM (fun entry => Object.ofRecord query.className (project query.toPhysical.includes entry.2)) =
        .ok objects := by
  obtain ⟨objects, hobjects⟩ := exists_forall₂ fun entry (hentry : entry ∈ memory.sortedMatches query) => by
    have hstored : entry ∈ memory.tableOf query.className := by
      have hmatch : entry ∈ memory.matchesOf query := (insertionSort_perm _ _).subset hentry
      exact (List.mem_filter.mp hmatch).1
    have hrecord : memory.record? query.className entry.1 = some entry.2 :=
      OrderedMap.get?_of_mem (h.distinct.tableOf query.className) hstored
    exact exists_shows (h.kept.record hrecord) (h.distinct_record hrecord) query.className query.includes
  exact ⟨objects, hobjects.imp fun _ _ hread => hread.2, Outcome.mapM_eq_ok_iff.mpr (hobjects.imp fun _ _ hread => hread.1)⟩

/-- In every reachable state, a query for which the matches have values of one sort under each sort key, or none, is answered as its matches are sorted. -/
theorem query_answered {patience : Nat} {memory : Memory} (h : Reachable patience memory) {query : FindQuery}
    (hvalid : query.validate = .ok ())
    (huniform : ∀ entry ∈ query.sort,
      Value.Uniform (presents (FieldName.toPhysical entry.1) (OrderedMap.values (memory.matchesOf query)))) :
    ∃ sorted objects, Answers patience memory query sorted objects := by
  obtain ⟨objects, hshown, hread⟩ := exists_shown h query
  have hperm : (memory.sortedMatches query).Perm (memory.matchesOf query) := insertionSort_perm _ _
  have hselect (skip : Nat) (limit : Option Nat) :
      selectObjects query.className { query.toPhysical with skip, limit } (memory.tableOf query.className) =
        .ok (page skip limit objects) :=
    (congrArg _ (selectEntries_page memory query skip limit)).trans (mapM_page hread skip limit)
  have hfind (skip : Nat) (limit : Option Nat) :
      (perform patience (.find { query with skip, limit })).run.run memory = (.ok (page skip limit objects), memory) :=
    (@run_find memory { query with skip, limit } hvalid).trans (congrArg (·, memory) (hselect skip limit))
  refine ⟨memory.sortedMatches query, objects, ?_⟩
  constructor
  case perm => exact hperm
  case once =>
    have hdistinct : OrderedMap.Distinct (memory.matchesOf query) := OrderedMap.distinct_filter (h.distinct.tableOf query.className) _
    exact (hperm.map Prod.fst).nodup_iff.mpr hdistinct
  case ordered =>
    refine sortedMatches_ordered ?_
    rintro ⟨key, direction⟩ hentry
    obtain ⟨name, hname, rfl⟩ := OrderedMap.mem_mapKeys hentry
    exact huniform (name, direction) hname
  case keys => exact OrderedMap.mapKeys_eq_map
  case shown => exact hshown
  case find => exact hfind
  case consecutive => exact fun skip size limit => page_append_page skip size limit objects
  case count =>
    intro skip limit
    have hlength : (select (memory.tableOf query.className) { query.toPhysical with skip, limit }).length =
        (page skip limit objects).length := by
      rw [select, selectEntries_page, List.length_map]
      exact (forall₂_page hshown skip limit).length_eq
    rw [← hlength]
    exact @run_count patience memory { query with skip, limit } hvalid
  case first =>
    intro skip limit
    refine (@run_first memory { query with skip, limit } hvalid patience).trans (congrArg (·, memory) ?_)
    exact congrArg (Except.map List.head?) (hselect skip (some 1))
  case each =>
    intro skip limit visitor
    have hnothing (seen : List Object) (object : Object) (hseen : seen ++ [object] <+: []) : visitor seen object = .ok () :=
      absurd (List.prefix_nil.mp hseen) (List.append_ne_nil_of_right_ne_nil seen (List.cons_ne_nil object []))
    have hvisits : Visits visitor ([] ++ page skip limit objects) _ := visits_visit (page skip limit objects) hnothing
    exact ⟨_, hvisits, run_each (hfind skip limit) visitor⟩

/-- A store with two records. -/
def twoDogs : Memory := (((Script.perform (.insert "Dog" [("name", .string "Ace")])).run (backend 2) false).run oneDog).2

theorem reachable_twoDogs : Reachable 2 twoDogs := .run _ false reachable_oneDog

def dogsByName : FindQuery := { className := "Dog", sort := [("name", .ascending)], includes := some ["name"] }

theorem dogs_answered : ∃ sorted objects, Answers 2 twoDogs dogsByName sorted objects := by
  refine query_answered reachable_twoDogs rfl fun entry hentry => .inr ⟨.string, by decide, ?_⟩
  obtain rfl := List.mem_singleton.mp hentry
  have hnames : presents "name" (OrderedMap.values (twoDogs.matchesOf dogsByName)) = [.string "Rex", .string "Ace"] := rfl
  show ∀ value ∈ presents "name" (OrderedMap.values (twoDogs.matchesOf dogsByName)), value.kind = .string
  rw [hnames]
  decide

/-- A query that names the id twice, under both of its names and in both directions. -/
def dogsByIdTwice : FindQuery := { className := "Dog", sort := [("id", .ascending), ("_id", .descending)] }

/-- Of two sort keys that are names of one field, the later one decides: the dog that comes first by the earlier key is found last. -/
theorem later_name_decides : Reachable 2 twoDogs ∧ dogsByIdTwice.validate = .ok () ∧
    (∀ entry ∈ dogsByIdTwice.sort,
      Value.Uniform (presents (FieldName.toPhysical entry.1) (OrderedMap.values (twoDogs.matchesOf dogsByIdTwice)))) ∧
    ∃ rex ace found, twoDogs.matchesOf dogsByIdTwice = [("A", rex), ("B", ace)] ∧
      RecordBelow (dogsByIdTwice.sort.map fun entry => (FieldName.toPhysical entry.1, entry.2)) rex ace ∧
      (perform 2 (.find dogsByIdTwice)).run.run twoDogs = (.ok found, twoDogs) ∧ found.map Object.id = [some "B", some "A"] := by
  have hids : presents "_id" (OrderedMap.values (twoDogs.matchesOf dogsByIdTwice)) = [.string "A", .string "B"] := rfl
  have hstrings : Value.Uniform (presents "_id" (OrderedMap.values (twoDogs.matchesOf dogsByIdTwice))) := by
    rw [hids]
    exact .inr ⟨.string, by decide, by decide⟩
  refine ⟨reachable_twoDogs, rfl, fun entry hentry => ?_, _, _, _, rfl, .inl ?_, rfl, rfl⟩
  · rcases List.mem_cons.mp hentry with rfl | hentry
    · exact hstrings
    · obtain rfl := List.mem_singleton.mp hentry
      exact hstrings
  · show Value.Below (.string "A") (.string "B")
    exact ⟨.string, "A", "B", rfl, rfl, show "A" < "B" by decide⟩

end Memory

end ObjectStore
