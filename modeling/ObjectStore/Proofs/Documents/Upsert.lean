import ObjectStore.Documents.Filter
import ObjectStore.Proofs.Documents.Changes
import ObjectStore.Proofs.Predicate

/-!
# Inserted documents are seeds

An upsert that finds nothing inserts the same fields as the library computes for its seed. The equalities of the filter are found again in its document, each field stands under the one operator of its update, and the fields to set on insert are listed unless the update touches them. Those are the exception: the value to set on insert is left out of the document of changes, so they start from the filter, while the seed starts from that value.
-/

namespace ObjectStore

namespace Documents

/-! ### Equalities of a filter -/

theorem exists_ofCompare_equal {key : String} {value : Value} {fields : List (String × Bson)}
    (h : Bson.ofFields [(key, value)] = .ok fields) :
    ∃ filter, (Bson.ofValue value).map (Filter.compare key .equal) = .ok filter ∧ equalitiesOf filter.document = fields := by
  rw [Bson.ofFields_eq_mapM, Outcome.mapM_cons] at h
  obtain ⟨field, hfield, hrest⟩ := Outcome.bind_eq_ok_iff.mp h
  obtain ⟨bson, hbson, rfl⟩ := Outcome.map_eq_ok_iff.mp hfield
  cases hrest
  rw [hbson]
  exact ⟨_, rfl, rfl⟩

theorem equalitiesOf_all (parts : List Filter) :
    equalitiesOf (Filter.all parts).document = equalitiesOfEach (Filter.documents parts) := by
  rw [Filter.document, equalitiesOf, equalitiesOfClause, if_pos rfl, equalitiesOf, List.append_nil]

mutual

/-- The equalities of a predicate are those of the document of its filter. -/
theorem exists_ofPredicate (predicate : Predicate) (hequalities : predicate.isEqualities = true) {fields : List (String × Bson)}
    (h : Bson.ofFields predicate.equalities = .ok fields) :
    ∃ filter, Filter.ofPredicate predicate = .ok filter ∧ equalitiesOf filter.document = fields := by
  cases predicate with
  | compare op lhs rhs =>
    cases op with
    | equal =>
      cases lhs with
      | key k =>
        cases rhs with
        | key l => cases hequalities
        | literal b => exact exists_ofCompare_equal h
      | literal a =>
        cases rhs with
        | key l => exact exists_ofCompare_equal h
        | literal b => cases hequalities
    | _ => cases lhs <;> cases rhs <;> cases hequalities
  | all parts =>
    obtain ⟨filters, hfilters, hempty, heach⟩ := exists_ofPredicates parts hequalities h
    rw [Filter.ofPredicate, hfilters]
    refine ⟨_, rfl, ?_⟩
    cases filters with
    | nil => exact heach
    | cons first rest => exact (equalitiesOf_all _).trans heach
  | not inner => cases hequalities
  | elementOf element collection => cases hequalities
  | notElementOf element collection => cases hequalities
  | between value low high => cases hequalities
  | notBetween value low high => cases hequalities
  | pattern kind key text => cases hequalities
  | any parts => cases hequalities
termination_by structural predicate

theorem exists_ofPredicates (parts : List Predicate) (hequalities : Predicate.areEqualities parts = true)
    {fields : List (String × Bson)} (h : Bson.ofFields (Predicate.equalitiesOfList parts) = .ok fields) :
    ∃ filters, Filter.ofPredicates parts = .ok filters ∧ filters.isEmpty = parts.isEmpty ∧
      equalitiesOfEach (Filter.documents filters) = fields := by
  cases parts with
  | nil =>
    cases h
    exact ⟨[], rfl, rfl, rfl⟩
  | cons part parts =>
    obtain ⟨hpart, hparts⟩ := Bool.and_eq_true_iff.mp hequalities
    rw [Predicate.equalitiesOfList, Bson.ofFields_append] at h
    obtain ⟨first, hfirst, hrest⟩ := Outcome.bind_eq_ok_iff.mp h
    obtain ⟨rest, hothers, rfl⟩ := Outcome.map_eq_ok_iff.mp hrest
    obtain ⟨filter, hfilter, rfl⟩ := exists_ofPredicate part hpart hfirst
    obtain ⟨filters, hfilters, -, rfl⟩ := exists_ofPredicates parts hparts hothers
    rw [Filter.ofPredicates, hfilter, hfilters]
    exact ⟨filter :: filters, rfl, rfl, rfl⟩
termination_by structural parts

end

theorem exists_ofOptional {query : FindOneQuery} (hequalities : Predicate.areEqualities query.filters = true)
    {fields : List (String × Bson)} (h : Bson.ofFields (Predicate.equalitiesOfList query.filters) = .ok fields) :
    ∃ filter, Filter.ofOptional query.predicate? = .ok filter ∧ equalitiesOf filter.document = fields := by
  rw [FindOneQuery.predicate?]
  match hfilters : query.filters with
  | [] =>
    rw [hfilters] at h
    cases h
    exact ⟨.everything, rfl, rfl⟩
  | [single] =>
    rw [hfilters, Predicate.equalitiesOfList, Predicate.equalitiesOfList, List.append_nil] at h
    rw [hfilters, Predicate.areEqualities, Predicate.areEqualities, Bool.and_true] at hequalities
    exact exists_ofPredicate single hequalities h
  | first :: second :: rest =>
    rw [hfilters] at h hequalities
    exact exists_ofPredicate (.all (first :: second :: rest)) hequalities h

/-! ### The inserted document -/

theorem rel_or {values others : Option Value} {forms otherForms : Option Bson}
    (h : Option.Rel (fun value bson => Bson.toValue bson = .ok value) values forms)
    (hothers : Option.Rel (fun value bson => Bson.toValue bson = .ok value) others otherForms) :
    Option.Rel (fun value bson => Bson.toValue bson = .ok value) (values.or others) (forms.or otherForms) := by
  cases h with
  | none => exact hothers
  | some hread => exact Option.Rel.some hread

theorem read_of_rel {value? : Option Value} {form? : Option Bson}
    (h : Option.Rel (fun value bson => Bson.toValue bson = .ok value) value? form?) :
    (match form? with
      | some bson => (Bson.toValue bson).map some
      | none => .ok none) = .ok value? := by
  cases h with
  | none => rfl
  | some hread =>
    show (Bson.toValue _).map some = _
    rw [hread]
    rfl

/-- Whether a query fixes distinct fields by equalities alone, and mentions only values that are read back as they were. -/
structure FixesFields (query : FindOneQuery) : Prop where
  equalities : Predicate.areEqualities query.filters = true
  distinct : OrderedMap.Distinct (Predicate.equalitiesOfList query.filters)
  distinctUpdate : query.update.Distinct
  distinctInsert : query.setOnInsert.Distinct
  survives : ∀ entry ∈ Predicate.equalitiesOfList query.filters, Bson.Survives entry.2
  survivesInsert : ∀ entry ∈ query.setOnInsert, Bson.Survives entry.2
  survivesUpdate : ∀ entry ∈ query.update, ∀ value ∈ entry.2.values, Bson.Survives value

namespace FixesFields

variable {query : FindOneQuery} (hfixes : FixesFields query)

include hfixes

theorem exists_filter : ∃ filter, Filter.ofOptional query.predicate? = .ok filter := by
  obtain ⟨fields, hfields⟩ := Bson.exists_ofFields_of_survives hfixes.survives
  obtain ⟨filter, hfilter, -⟩ := exists_ofOptional hfixes.equalities hfields
  exact ⟨filter, hfilter⟩

theorem exists_ofUpsert_iff {seed : Fields} (hseed : query.upsertSeed = .ok seed) (id : Option String) (now : Instant) :
    (∃ changes, Changes.ofUpsert query.update query.setOnInsert id now = .ok changes) ↔
      FieldName.physicalId ∉ OrderedMap.keys query.update := by
  have hoperands : ∀ entry ∈ query.update, ∃ bson, operand entry.2 = .ok bson := by
    intro entry hentry
    have hget := OrderedMap.get?_of_mem hfixes.distinctUpdate hentry
    have happly := Updates.apply_of_applyTo hfixes.distinctUpdate query.distinct_seedFields hseed hget
    exact exists_operand (hfixes.survivesUpdate entry hentry) happly
  rw [← @Changes.exists_ofUpdates_iff query.update hoperands now]
  obtain ⟨listed, hlisted⟩ : ∃ listed, Bson.ofFields
      (OrderedMap.filter (fun key _ => !OrderedMap.contains query.update key) query.setOnInsert) = .ok listed :=
    Bson.exists_ofFields_of_survives fun entry hentry => hfixes.survivesInsert entry (List.mem_of_mem_filter hentry)
  have hinserted : ∃ inserted, Changes.onInsert query.update query.setOnInsert id now = .ok inserted :=
    ⟨_, Outcome.bind_eq_ok_iff.mpr ⟨listed, hlisted, rfl⟩⟩
  constructor
  · rintro ⟨changes, hchanges⟩
    obtain ⟨updated, -, hupdated, -, -⟩ := Changes.ofUpsert_eq_ok_iff.mp hchanges
    exact ⟨updated, hupdated⟩
  · rintro ⟨updated, hupdated⟩
    obtain ⟨inserted, hinserted⟩ := hinserted
    exact ⟨_, Changes.ofUpsert_eq_ok_iff.mpr ⟨updated, inserted, hupdated, hinserted, rfl⟩⟩

variable {filter : Filter} (hfilter : Filter.ofOptional query.predicate? = .ok filter) {id : Option String} {now : Instant}
  {changes : Changes} (hchanges : Changes.ofUpsert query.update query.setOnInsert id now = .ok changes) {key : String}
  (hkey : key ∉ FieldName.reserved)

include hfilter hchanges hkey

/-- A field before the operators: what is to be set on insert comes before what the filter fixes, unless it is updated. -/
theorem startField_eq : startField filter.document changes.document (Percent.escape key) =
    .ok ((if key ∈ OrderedMap.keys query.update then none else OrderedMap.get? query.setOnInsert key).or
      (OrderedMap.get? (Predicate.equalitiesOfList query.filters) key)) := by
  obtain ⟨fields, hfields⟩ := Bson.exists_ofFields_of_survives hfixes.survives
  obtain ⟨filter', hfilter', hequalities⟩ := exists_ofOptional hfixes.equalities hfields
  obtain rfl := Except.ok.inj (hfilter.symm.trans hfilter')
  obtain ⟨updated, inserted, hupdated, hinserted, rfl⟩ := Changes.ofUpsert_eq_ok_iff.mp hchanges
  have hread := rel_or (Changes.get?_onInsert hinserted hfixes.distinctInsert hfixes.survivesInsert hkey)
    (Bson.read_get?_ofFields hfixes.survives hfields key)
  rw [startField, Changes.listedFields_document (Changes.operator_ofUpdates_ne hupdated), hequalities,
    OrderedMap.get?_extend (Changes.distinct_onInsert hinserted)]
  exact read_of_rel hread

theorem insertedField_of_not_mem (hnot : key ∉ OrderedMap.keys query.update) :
    insertedField filter.document changes.document (Percent.escape key) = .ok (OrderedMap.get? query.seedFields key) := by
  have hstart := hfixes.startField_eq hfilter hchanges hkey
  obtain ⟨updated, inserted, hupdated, -, rfl⟩ := Changes.ofUpsert_eq_ok_iff.mp hchanges
  rw [insertedField, hstart]
  show (Changes.document _).foldlM (changeField _) _ = _
  rw [Changes.foldlM_changeField_append, Changes.entries_ofUpdates_of_not_mem hupdated hkey hnot, if_neg hnot,
    FindOneQuery.get?_seedFields hfixes.distinctInsert, OrderedMap.ofList_of_distinct hfixes.distinct]
  rfl

theorem insertedField_of_get? {update : Update} (hupdate : OrderedMap.get? query.update key = some update) :
    insertedField filter.document changes.document (Percent.escape key) =
      update.apply (OrderedMap.get? (Predicate.equalitiesOfList query.filters) key) := by
  have hmem : key ∈ OrderedMap.keys query.update := OrderedMap.mem_keys_iff.mpr ⟨update, OrderedMap.mem_of_get? hupdate⟩
  have hstart := hfixes.startField_eq hfilter hchanges hkey
  obtain ⟨updated, inserted, hupdated, -, rfl⟩ := Changes.ofUpsert_eq_ok_iff.mp hchanges
  obtain ⟨bson, hbson, hentries⟩ := Changes.entries_ofUpdates_of_get? hupdated hkey hfixes.distinctUpdate hupdate
  have hread := updateOf?_operand (hfixes.survivesUpdate _ (OrderedMap.mem_of_get? hupdate)) hbson
  have hnot : Operator.ofUpdate update ≠ .setOnInsert := by cases update <;> exact nofun
  rw [insertedField, hstart]
  show (Changes.document _).foldlM (changeField _) _ = _
  rw [Changes.foldlM_changeField_append, hentries, if_pos hmem, Option.none_or, List.foldlM_cons]
  simp only [Changes.applyEntry, if_neg hnot, hread, List.foldlM_nil, bind_pure]

end FixesFields

/-- An upsert that finds nothing inserts the fields of its seed, except those that are both set on insert and updated: there the value to set on insert is lost, and what the filter fixes is updated. -/
theorem insertedField_agrees {query : FindOneQuery} (hfixes : FixesFields query) {seed : Fields} (hseed : query.upsertSeed = .ok seed)
    (id : Option String) (now : Instant) :
    (∃ filter, Filter.ofOptional query.predicate? = .ok filter) ∧
      ((∃ changes, Changes.ofUpsert query.update query.setOnInsert id now = .ok changes) ↔
        FieldName.physicalId ∉ OrderedMap.keys query.update) ∧
      ∀ filter changes, Filter.ofOptional query.predicate? = .ok filter →
        Changes.ofUpsert query.update query.setOnInsert id now = .ok changes → ∀ key ∉ FieldName.reserved,
          (¬(key ∈ OrderedMap.keys query.setOnInsert ∧ key ∈ OrderedMap.keys query.update) →
            insertedField filter.document changes.document (Percent.escape key) = .ok (OrderedMap.get? seed key)) ∧
          ∀ update, key ∈ OrderedMap.keys query.setOnInsert → OrderedMap.get? query.update key = some update →
            insertedField filter.document changes.document (Percent.escape key) =
              update.apply (OrderedMap.get? (Predicate.equalitiesOfList query.filters) key) := by
  refine ⟨hfixes.exists_filter, hfixes.exists_ofUpsert_iff hseed id now, ?_⟩
  intro filter changes hfilter hchanges key hkey
  constructor
  · intro hseparate
    cases hupdate : OrderedMap.get? query.update key with
    | none =>
      have hnot := OrderedMap.get?_eq_none_iff.mp hupdate
      rw [hfixes.insertedField_of_not_mem hfilter hchanges hkey hnot, Updates.get?_applyTo_of_not_mem hseed hnot]
    | some update =>
      have hmem : key ∈ OrderedMap.keys query.update := OrderedMap.mem_keys_iff.mpr ⟨update, OrderedMap.mem_of_get? hupdate⟩
      have hnot : key ∉ OrderedMap.keys query.setOnInsert := fun hlisted => hseparate ⟨hlisted, hmem⟩
      have happly := Updates.apply_of_applyTo hfixes.distinctUpdate query.distinct_seedFields hseed hupdate
      rw [FindOneQuery.get?_seedFields hfixes.distinctInsert, OrderedMap.get?_eq_none_iff.mpr hnot, Option.none_or,
        OrderedMap.ofList_of_distinct hfixes.distinct] at happly
      rw [hfixes.insertedField_of_get? hfilter hchanges hkey hupdate, happly]
  · intro update _ hupdate
    exact hfixes.insertedField_of_get? hfilter hchanges hkey hupdate

/-- An upsert whose fields come from the filter, from what is set on insert, from the update, and from two of them at a time. -/
def counted : FindOneQuery where
  className := "T"
  filters := [.all [.compare .equal (.key "a.b") (.literal (.string "x"))],
    .compare .equal (.literal (.integer 3)) (.key "m"), .compare .equal (.key "kind") (.literal .null)]
  update := [("m", .increment (.integer 2)), ("n", .increment (.integer 1)), ("tags", .push .null)]
  setOnInsert := [("kind", .string "k"), ("n", .integer 5)]

theorem fixesFields_counted : FixesFields counted where
  equalities := rfl
  distinct := by decide
  distinctUpdate := by decide
  distinctInsert := by decide
  survives := by
    simp only [counted, Predicate.equalitiesOfList, Predicate.equalities, Predicate.equality?]
    simp [Bson.Survives, Bson.ofValue, Bson.toValue]
  survivesInsert := by simp [counted, Bson.Survives, Bson.ofValue, Bson.toValue]
  survivesUpdate := by simp [counted, Update.values, Update.operand?, Bson.Survives, Bson.ofValue, Bson.toValue]

theorem counted_agrees :
    ∃ seed filter changes, counted.upsertSeed = .ok seed ∧ Filter.ofOptional counted.predicate? = .ok filter ∧
      Changes.ofUpsert counted.update counted.setOnInsert (some "x") default = .ok changes ∧
      insertedField filter.document changes.document (Percent.escape "a.b") = .ok (some (.string "x")) ∧
      insertedField filter.document changes.document (Percent.escape "m") = .ok (some (.integer 5)) ∧
      insertedField filter.document changes.document (Percent.escape "n") = .ok (some (.integer 1)) := by
  have hseed : counted.upsertSeed = .ok [("a.b", .string "x"), ("m", .integer 5), ("kind", .string "k"), ("n", .integer 6),
    ("tags", .array [.null])] := rfl
  obtain ⟨⟨filter, hfilter⟩, hexists, hagrees⟩ := insertedField_agrees fixesFields_counted hseed (some "x") default
  obtain ⟨changes, hchanges⟩ := hexists.mpr (by decide)
  have hfields := hagrees filter changes hfilter hchanges
  refine ⟨_, filter, changes, hseed, hfilter, hchanges, ?_, ?_, ?_⟩
  · exact (hfields "a.b" (by decide)).1 (by decide)
  · exact (hfields "m" (by decide)).1 (by decide)
  · exact (hfields "n" (by decide)).2 _ (by decide) rfl

/-- A field that is set on insert and incremented starts from nothing, where its seed starts from what is set. -/
theorem not_all_inserted_agree :
    ¬∀ (query : FindOneQuery) (seed : Fields) (id : Option String) (now : Instant) (filter : Filter) (changes : Changes),
      FixesFields query → query.upsertSeed = .ok seed → Filter.ofOptional query.predicate? = .ok filter →
      Changes.ofUpsert query.update query.setOnInsert id now = .ok changes →
      ∀ key ∉ FieldName.reserved,
        insertedField filter.document changes.document (Percent.escape key) = .ok (OrderedMap.get? seed key) := by
  intro hall
  have hsame : (.ok (some (.integer 1)) : Outcome (Option Value)) = .ok (some (.integer 6)) :=
    hall counted _ (some "x") default _ _ fixesFields_counted rfl rfl rfl "n" (by decide)
  injection hsame with hsame
  injection hsame with hsame
  injection hsame with hsame
  exact absurd hsame (by decide)

end Documents

end ObjectStore
