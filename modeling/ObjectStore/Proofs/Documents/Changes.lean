import ObjectStore.Documents.Changes
import ObjectStore.Proofs.Bson.Codec
import ObjectStore.Proofs.Documents.Insertion
import ObjectStore.Proofs.Update

/-!
# Fields and the operators that list them

Every field of an update stands under the one operator of its update, and an inserted document is listed under none but the operator for inserted documents. So a field goes through its own update and through nothing else.
-/

namespace ObjectStore

namespace Bson

/-- Whether a value is read back from its form just as it was. -/
def Survives (value : Value) : Prop := ∃ bson, ofValue value = .ok bson ∧ toValue bson = .ok value

theorem Survives.toValue_eq {value : Value} (h : Survives value) {bson : Bson} (hbson : ofValue value = .ok bson) :
    toValue bson = .ok value := by
  obtain ⟨form, hform, hread⟩ := h
  obtain rfl := Except.ok.inj (hform.symm.trans hbson)
  exact hread

theorem exists_ofFields_of_survives {fields : Fields} (h : ∀ entry ∈ fields, Survives entry.2) :
    ∃ document, ofFields fields = .ok document := by
  refine exists_ofFields_iff.mpr fun entry hentry => ?_
  obtain ⟨bson, hbson, -⟩ := h entry hentry
  exact exists_ofValue_iff_allFit.mp ⟨bson, hbson⟩

theorem read_get?_ofFields {fields : Fields} (hsurvive : ∀ entry ∈ fields, Survives entry.2) {document : Document}
    (h : ofFields fields = .ok document) (key : String) : Option.Rel (fun value bson => toValue bson = .ok value)
      (OrderedMap.get? fields key) (OrderedMap.get? document (Percent.escape key)) := by
  have hwritten := get?_ofFields h key
  generalize hvalue : OrderedMap.get? fields key = value? at hwritten
  generalize OrderedMap.get? document (Percent.escape key) = form? at hwritten ⊢
  cases hwritten with
  | none => exact Option.Rel.none
  | some hbson => exact Option.Rel.some ((hsurvive _ (OrderedMap.mem_of_get? hvalue)).toValue_eq hbson)

theorem exists_ofValues_of_survives {values : List Value} (h : ∀ value ∈ values, Survives value) :
    ∃ forms, ofValues values = .ok forms ∧ toValues forms = .ok values := by
  obtain ⟨forms, hforms⟩ : ∃ forms, values.mapM ofValue = .ok forms := by
    apply Outcome.exists_mapM_eq_ok
    intro value hvalue
    obtain ⟨bson, hbson, -⟩ := h value hvalue
    exact ⟨bson, hbson⟩
  have hread : forms.mapM toValue = .ok (values.map id) :=
    Outcome.mapM_mapM (fun value hvalue form hform => (h value hvalue).toValue_eq hform) hforms
  refine ⟨forms, ?_, ?_⟩
  · rw [ofValues_eq_mapM, hforms]
  · rw [toValues_eq_mapM, hread, List.map_id]

end Bson

/-! ### Operators and their operands -/

/-- The values that an update mentions. -/
def Update.values : Update → List Value
  | removeAll values => values
  | update => update.operand?.toList

namespace Documents

theorem updateOf?_operand {update : Update} (hsurvive : ∀ value ∈ update.values, Bson.Survives value) {bson : Bson}
    (h : operand update = .ok bson) : updateOf? (Operator.ofUpdate update).name bson = some update := by
  cases update with
  | set value | max value | min value | push value =>
    have hread := (hsurvive value List.mem_cons_self).toValue_eq h
    simp [updateOf?, Operator.ofUpdate, Operator.name, hread]
  | increment value | multiply value =>
    obtain ⟨_, -, hbson⟩ := Outcome.bind_eq_ok_iff.mp h
    have hread := (hsurvive value List.mem_cons_self).toValue_eq hbson
    simp [updateOf?, Operator.ofUpdate, Operator.name, hread]
  | removeAll values =>
    have hvalues : ∀ value ∈ values, Bson.Survives value := hsurvive
    obtain ⟨forms, hforms, hread⟩ := Bson.exists_ofValues_of_survives hvalues
    rw [operand, hforms] at h
    cases h
    simp [updateOf?, Operator.ofUpdate, Operator.name, Bson.toValue, hread, Except.map]
  | unset | popFirst | popLast =>
    cases h
    rfl

theorem exists_operand {update : Update} (hsurvive : ∀ value ∈ update.values, Bson.Survives value)
    {current result : Option Value} (h : update.apply current = .ok result) : ∃ bson, operand update = .ok bson := by
  cases update with
  | set value | max value | min value | push value =>
    obtain ⟨bson, hbson, -⟩ := hsurvive value List.mem_cons_self
    exact ⟨bson, hbson⟩
  | increment value | multiply value =>
    obtain ⟨bson, hbson, -⟩ := hsurvive value List.mem_cons_self
    have hnumeric : value.isNumeric = true := Update.isNumeric_of_apply (by simp) h
    refine ⟨bson, ?_⟩
    rw [operand, Update.requireNumber, hnumeric]
    exact hbson
  | removeAll values =>
    have hvalues : ∀ value ∈ values, Bson.Survives value := hsurvive
    obtain ⟨forms, hforms, -⟩ := Bson.exists_ofValues_of_survives hvalues
    exact ⟨.array forms, by rw [operand, hforms]; rfl⟩
  | unset | popFirst | popLast => exact ⟨_, rfl⟩

namespace Changes

/-- The operators that list a field, with their operands. -/
def entries (changes : Changes) (name : String) : List (Operator × Bson) :=
  changes.filterMap fun change => (OrderedMap.get? change.2 name).map fun operand => (change.1, operand)

theorem entries_cons (operator : Operator) (fields : Document) (changes : Changes) (name : String) :
    entries ((operator, fields) :: changes) name =
      ((OrderedMap.get? fields name).map fun operand => (operator, operand)).toList ++ entries changes name := by
  rw [entries, List.filterMap_cons]
  cases OrderedMap.get? fields name <;> rfl

theorem entries_append (changes others : Changes) (name : String) :
    entries (changes ++ others) name = entries changes name ++ entries others name :=
  List.filterMap_append

theorem entries_add_of_ne {name other : String} (hne : name ≠ other) (changes : Changes) (operator : Operator) (operand : Bson) :
    entries (add changes operator name operand) other = entries changes other := by
  induction changes with
  | nil =>
    rw [add, entries_cons, OrderedMap.get?_cons, if_neg hne]
    rfl
  | cons change rest ih =>
    obtain ⟨first, fields⟩ := change
    rw [add]
    split
    · rw [entries_cons, entries_cons, OrderedMap.get?_insert_of_ne hne]
    · rw [entries_cons, entries_cons, ih]

/-- A field that no operator lists yet is listed by the one that it is added to. -/
theorem entries_add_self {changes : Changes} {name : String} (hnone : entries changes name = []) (operator : Operator)
    (operand : Bson) : entries (add changes operator name operand) name = [(operator, operand)] := by
  induction changes with
  | nil =>
    rw [add, entries_cons, OrderedMap.get?_cons, if_pos rfl]
    rfl
  | cons change rest ih =>
    obtain ⟨first, fields⟩ := change
    rw [entries_cons, List.append_eq_nil_iff] at hnone
    rw [add]
    split
    · next same =>
      rw [entries_cons, OrderedMap.get?_insert_self, hnone.2, same]
      rfl
    · rw [entries_cons, hnone.1, ih hnone.2, List.nil_append]

theorem mem_add {changes : Changes} {operator : Operator} {name : String} {operand : Bson} {change : Operator × Document}
    (h : change ∈ add changes operator name operand) : change.1 = operator ∨ ∃ other ∈ changes, change.1 = other.1 := by
  induction changes with
  | nil => exact Or.inl (congrArg Prod.fst (List.mem_singleton.mp h))
  | cons first rest ih =>
    rw [add] at h
    split at h
    · next same =>
      rcases List.mem_cons.mp h with rfl | hrest
      · exact Or.inl same
      · exact Or.inr ⟨change, List.mem_cons_of_mem _ hrest, rfl⟩
    · rcases List.mem_cons.mp h with rfl | hrest
      · exact Or.inr ⟨_, List.mem_cons_self, rfl⟩
      · rcases ih hrest with hnew | ⟨other, hother, hsame⟩
        · exact Or.inl hnew
        · exact Or.inr ⟨other, List.mem_cons_of_mem _ hother, hsame⟩

/-- A field after one operator that lists it. -/
def applyEntry (current : Option Value) (entry : Operator × Bson) : Outcome (Option Value) :=
  if entry.1 = .setOnInsert then .ok current
  else
    match updateOf? entry.1.name entry.2 with
    | some update => update.apply current
    | none => .error (unknownOperator entry.1.name)

theorem name_eq_setOnInsert_iff (operator : Operator) : operator.name = "$setOnInsert" ↔ operator = .setOnInsert := by
  cases operator <;> simp [Operator.name]

theorem changeField_eq (name : String) (current : Option Value) (operator : Operator) (fields : Document) :
    changeField name current (operator.name, .document fields) =
      match OrderedMap.get? fields name with
      | some operand => applyEntry current (operator, operand)
      | none => .ok current := by
  simp only [changeField, applyEntry, name_eq_setOnInsert_iff]
  cases OrderedMap.get? fields name with
  | none => split <;> rfl
  | some operand => rfl

/-- The field goes through the operators that list it, and through no others. -/
theorem foldlM_changeField (changes : Changes) (name : String) (current : Option Value) :
    (document changes).foldlM (changeField name) current = (entries changes name).foldlM applyEntry current := by
  induction changes generalizing current with
  | nil => rfl
  | cons change rest ih =>
    obtain ⟨operator, fields⟩ := change
    show (changeField name current (operator.name, .document fields) >>= fun next => (document rest).foldlM (changeField name) next) = _
    rw [changeField_eq, entries_cons]
    cases OrderedMap.get? fields name with
    | none => exact ih current
    | some operand =>
      rw [Option.map_some, Option.toList_some, List.singleton_append, List.foldlM_cons]
      exact bind_congr fun next => ih next

/-! ### The changes of an upsert -/

theorem addUpdate_eq_ok_iff {changes result : Changes} {key : String} {update : Update} :
    addUpdate changes key update = .ok result ↔ key ≠ FieldName.physicalId ∧
      ∃ bson, operand update = .ok bson ∧ add changes (Operator.ofUpdate update) (Percent.escape key) bson = result := by
  rw [addUpdate]
  split
  · next same => simp [same]
  · next hne => rw [Outcome.map_eq_ok_iff]; simp [hne]

theorem foldlM_addUpdate_cons (key : String) (update : Update) (rest : Updates) (changes : Changes) :
    ((key, update) :: rest).foldlM (fun changes (key, update) => addUpdate changes key update) changes =
      (addUpdate changes key update).bind fun next =>
        rest.foldlM (fun changes (key, update) => addUpdate changes key update) next :=
  List.foldlM_cons

theorem entries_foldlM_of_not_mem {updates : Updates} {start changes : Changes}
    (h : updates.foldlM (fun changes (key, update) => addUpdate changes key update) start = .ok changes) {key : String}
    (hkey : key ∉ OrderedMap.keys updates) : entries changes (Percent.escape key) = entries start (Percent.escape key) := by
  induction updates generalizing start with
  | nil =>
    obtain rfl := Except.ok.inj h
    rfl
  | cons entry rest ih =>
    obtain ⟨name, update⟩ := entry
    simp only [OrderedMap.keys, List.map_cons, List.mem_cons, not_or] at hkey
    rw [foldlM_addUpdate_cons] at h
    obtain ⟨next, hnext, hrest⟩ := Outcome.bind_eq_ok_iff.mp h
    obtain ⟨-, bson, -, rfl⟩ := addUpdate_eq_ok_iff.mp hnext
    rw [ih hrest hkey.2, entries_add_of_ne fun same => hkey.1 (Percent.escape_injective same).symm]

/-- A field that is updated stands under the operator of its update alone. -/
theorem entries_foldlM_of_get? {updates : Updates} (hdistinct : updates.Distinct) {start changes : Changes}
    (h : updates.foldlM (fun changes (key, update) => addUpdate changes key update) start = .ok changes) {key : String}
    {update : Update} (hkey : OrderedMap.get? updates key = some update) (hnone : entries start (Percent.escape key) = []) :
    ∃ bson, operand update = .ok bson ∧ entries changes (Percent.escape key) = [(Operator.ofUpdate update, bson)] := by
  induction updates generalizing start with
  | nil => cases hkey
  | cons entry rest ih =>
    obtain ⟨name, first⟩ := entry
    obtain ⟨hname, hrest⟩ := List.nodup_cons.mp hdistinct
    rw [foldlM_addUpdate_cons] at h
    obtain ⟨next, hnext, hothers⟩ := Outcome.bind_eq_ok_iff.mp h
    obtain ⟨-, bson, hbson, rfl⟩ := addUpdate_eq_ok_iff.mp hnext
    rw [OrderedMap.get?_cons] at hkey
    split at hkey
    · next same =>
      subst same
      cases hkey
      exact ⟨bson, hbson, by rw [entries_foldlM_of_not_mem hothers hname, entries_add_self hnone]⟩
    · next hne =>
      refine ih hrest hothers hkey ?_
      rw [entries_add_of_ne fun same => hne (Percent.escape_injective same), hnone]

theorem operator_foldlM_ne {updates : Updates} {start changes : Changes}
    (h : updates.foldlM (fun changes (key, update) => addUpdate changes key update) start = .ok changes)
    (hstart : ∀ change ∈ start, change.1 ≠ .setOnInsert) : ∀ change ∈ changes, change.1 ≠ .setOnInsert := by
  induction updates generalizing start with
  | nil =>
    obtain rfl := Except.ok.inj h
    exact hstart
  | cons entry rest ih =>
    obtain ⟨name, update⟩ := entry
    rw [foldlM_addUpdate_cons] at h
    obtain ⟨next, hnext, hrest⟩ := Outcome.bind_eq_ok_iff.mp h
    obtain ⟨-, bson, -, rfl⟩ := addUpdate_eq_ok_iff.mp hnext
    refine ih hrest fun change hchange => ?_
    rcases mem_add hchange with hnew | ⟨other, hother, hsame⟩
    · rw [hnew]
      cases update <;> simp [Operator.ofUpdate]
    · rw [hsame]
      exact hstart other hother

theorem ofUpdates_eq_ok_iff {updates : Updates} {now : Instant} {changes : Changes} :
    ofUpdates updates now = .ok changes ↔
      ∃ listed, updates.foldlM (fun changes (key, update) => addUpdate changes key update) [] = .ok listed ∧
        add listed .set FieldName.physicalUpdatedAt (.instant now.millis) = changes := by
  constructor
  · intro h
    obtain ⟨listed, hlisted, same⟩ := Outcome.bind_eq_ok_iff.mp h
    exact ⟨listed, hlisted, Except.ok.inj same⟩
  · rintro ⟨listed, hlisted, rfl⟩
    exact Outcome.bind_eq_ok_iff.mpr ⟨listed, hlisted, rfl⟩

theorem ofUpsert_eq_ok_iff {updates : Updates} {setOnInsert : Fields} {id : Option String} {now : Instant} {changes : Changes} :
    ofUpsert updates setOnInsert id now = .ok changes ↔
      ∃ updated inserted, ofUpdates updates now = .ok updated ∧ onInsert updates setOnInsert id now = .ok inserted ∧
        updated ++ [(.setOnInsert, inserted)] = changes := by
  constructor
  · intro h
    obtain ⟨updated, hupdated, hrest⟩ := Outcome.bind_eq_ok_iff.mp h
    obtain ⟨inserted, hinserted, same⟩ := Outcome.bind_eq_ok_iff.mp hrest
    exact ⟨updated, inserted, hupdated, hinserted, Except.ok.inj same⟩
  · rintro ⟨updated, inserted, hupdated, hinserted, rfl⟩
    exact Outcome.bind_eq_ok_iff.mpr ⟨updated, hupdated, Outcome.bind_eq_ok_iff.mpr ⟨inserted, hinserted, rfl⟩⟩

theorem escape_of_mem_reserved {name : String} (h : name ∈ FieldName.reserved) : Percent.escape name = name := by
  simp only [FieldName.reserved, List.mem_cons, List.not_mem_nil, or_false] at h
  rcases h with rfl | rfl | rfl <;> decide

theorem ne_escape_of_not_mem_reserved {key name : String} (hkey : key ∉ FieldName.reserved) (hname : name ∈ FieldName.reserved) :
    name ≠ Percent.escape key := by
  intro same
  rw [← escape_of_mem_reserved hname] at same
  rw [← Percent.escape_injective same] at hkey
  exact hkey hname

section Updates

variable {updates : Updates} {now : Instant} {updated : Changes} (h : ofUpdates updates now = .ok updated) {key : String}
  (hreserved : key ∉ FieldName.reserved)

include h

theorem operator_ofUpdates_ne : ∀ change ∈ updated, change.1 ≠ .setOnInsert := by
  obtain ⟨listed, hlisted, rfl⟩ := ofUpdates_eq_ok_iff.mp h
  intro change hchange
  rcases mem_add hchange with hnew | ⟨other, hother, hsame⟩
  · rw [hnew]
    exact nofun
  · rw [hsame]
    exact operator_foldlM_ne hlisted (fun _ hnone => absurd hnone List.not_mem_nil) other hother

include hreserved

theorem entries_ofUpdates_of_not_mem (hkey : key ∉ OrderedMap.keys updates) : entries updated (Percent.escape key) = [] := by
  obtain ⟨listed, hlisted, rfl⟩ := ofUpdates_eq_ok_iff.mp h
  rw [entries_add_of_ne (ne_escape_of_not_mem_reserved hreserved (by decide)), entries_foldlM_of_not_mem hlisted hkey]
  rfl

theorem entries_ofUpdates_of_get? (hdistinct : updates.Distinct) {update : Update} (hkey : OrderedMap.get? updates key = some update) :
    ∃ bson, operand update = .ok bson ∧ entries updated (Percent.escape key) = [(Operator.ofUpdate update, bson)] := by
  obtain ⟨listed, hlisted, rfl⟩ := ofUpdates_eq_ok_iff.mp h
  rw [entries_add_of_ne (ne_escape_of_not_mem_reserved hreserved (by decide))]
  exact entries_foldlM_of_get? hdistinct hlisted hkey rfl

end Updates

/-- Updates whose operands have a form are changes, unless one is of the id. -/
theorem exists_ofUpdates_iff {updates : Updates} (hoperands : ∀ entry ∈ updates, ∃ bson, operand entry.2 = .ok bson) {now : Instant} :
    (∃ updated, ofUpdates updates now = .ok updated) ↔ FieldName.physicalId ∉ OrderedMap.keys updates := by
  suffices hlisted : ∀ start : Changes,
      (∃ listed, updates.foldlM (fun changes (key, update) => addUpdate changes key update) start = .ok listed) ↔
        FieldName.physicalId ∉ OrderedMap.keys updates by
    simp only [ofUpdates_eq_ok_iff, ← hlisted []]
    exact ⟨fun ⟨_, listed, hlisted, _⟩ => ⟨listed, hlisted⟩, fun ⟨listed, hlisted⟩ => ⟨_, listed, hlisted, rfl⟩⟩
  induction updates with
  | nil => exact fun start => ⟨fun _ => List.not_mem_nil, fun _ => ⟨start, rfl⟩⟩
  | cons entry rest ih =>
    intro start
    obtain ⟨name, update⟩ := entry
    obtain ⟨bson, hbson⟩ := hoperands _ List.mem_cons_self
    have hrest := ih fun other hother => hoperands other (List.mem_cons_of_mem _ hother)
    simp only [foldlM_addUpdate_cons, Outcome.bind_eq_ok_iff, addUpdate_eq_ok_iff, OrderedMap.keys, List.map_cons,
      List.mem_cons, not_or]
    constructor
    · rintro ⟨listed, next, ⟨hname, -⟩, hlisted⟩
      exact ⟨Ne.symm hname, (hrest next).mp ⟨listed, hlisted⟩⟩
    · rintro ⟨hname, hothers⟩
      obtain ⟨listed, hlisted⟩ := (hrest (add start (Operator.ofUpdate update) (Percent.escape name) bson)).mpr hothers
      exact ⟨listed, _, ⟨Ne.symm hname, bson, hbson, rfl⟩, hlisted⟩

/-! ### The fields of inserted documents -/

section OnInsert

variable {updates : Updates} {setOnInsert : Fields} {id : Option String} {now : Instant} {inserted : Document}
  (h : onInsert updates setOnInsert id now = .ok inserted)

include h

theorem distinct_onInsert : OrderedMap.Distinct inserted := by
  obtain ⟨listed, -, same⟩ := Outcome.bind_eq_ok_iff.mp h
  obtain rfl := Except.ok.inj same
  apply OrderedMap.distinct_extend
  cases id <;> simp [OrderedMap.Distinct, OrderedMap.keys, FieldName.physicalId, FieldName.physicalCreatedAt]

/-- A field that is set on insert is listed unless it is updated. -/
theorem get?_onInsert (hdistinct : setOnInsert.Distinct) (hsurvive : ∀ entry ∈ setOnInsert, Bson.Survives entry.2) {key : String}
    (hreserved : key ∉ FieldName.reserved) : Option.Rel (fun value bson => Bson.toValue bson = .ok value)
      (if key ∈ OrderedMap.keys updates then none else OrderedMap.get? setOnInsert key)
      (OrderedMap.get? inserted (Percent.escape key)) := by
  obtain ⟨listed, hlisted, same⟩ := Outcome.bind_eq_ok_iff.mp h
  obtain rfl := Except.ok.inj same
  rw [OrderedMap.get?_extend (Bson.distinct_ofFields hlisted (OrderedMap.distinct_filter hdistinct _))]
  have hown : OrderedMap.get? ((id.map fun id => (FieldName.physicalId, Bson.string id)).toList
      ++ [(FieldName.physicalCreatedAt, .instant now.millis)]) (Percent.escape key) = none := by
    have hid := ne_escape_of_not_mem_reserved hreserved (show FieldName.physicalId ∈ FieldName.reserved by decide)
    have hcreated := ne_escape_of_not_mem_reserved hreserved (show FieldName.physicalCreatedAt ∈ FieldName.reserved by decide)
    cases id <;> simp [OrderedMap.get?_cons, hid, hcreated]
  rw [hown, Option.or_none]
  have hkept : ∀ entry ∈ OrderedMap.filter (fun key _ => !OrderedMap.contains updates key) setOnInsert, Bson.Survives entry.2 :=
    fun entry hentry => hsurvive entry (List.mem_of_mem_filter hentry)
  have hread := Bson.read_get?_ofFields hkept hlisted key
  rw [OrderedMap.get?_filter (fun key => !OrderedMap.contains updates key)] at hread
  by_cases hkey : key ∈ OrderedMap.keys updates
  · rw [OrderedMap.contains_eq_true_iff.mpr hkey] at hread
    rwa [if_pos hkey]
  · rw [Bool.eq_false_iff.mpr fun hit => hkey (OrderedMap.contains_eq_true_iff.mp hit)] at hread
    rwa [if_neg hkey]

end OnInsert

theorem listedFields_document {updated : Changes} (h : ∀ change ∈ updated, change.1 ≠ .setOnInsert) (inserted : Document) :
    listedFields (document (updated ++ [(.setOnInsert, inserted)])) = inserted := by
  induction updated with
  | nil => rfl
  | cons change rest ih =>
    obtain ⟨operator, fields⟩ := change
    have hname : operator.name ≠ "$setOnInsert" := fun same => h _ List.mem_cons_self ((name_eq_setOnInsert_iff operator).mp same)
    have hsame : listedFields (document ((operator, fields) :: rest ++ [(.setOnInsert, inserted)])) =
        listedFields (document (rest ++ [(.setOnInsert, inserted)])) := by
      simp only [listedFields, document, List.cons_append, List.map_cons, OrderedMap.get?_cons, if_neg hname]
    rw [hsame, ih fun other hother => h other (List.mem_cons_of_mem _ hother)]

theorem foldlM_changeField_append (updated : Changes) (inserted : Document) (name : String) (current : Option Value) :
    (document (updated ++ [(.setOnInsert, inserted)])).foldlM (changeField name) current =
      (entries updated name).foldlM applyEntry current := by
  rw [foldlM_changeField, entries_append, List.foldlM_append, entries_cons]
  conv_rhs => rw [← bind_pure ((entries updated name).foldlM applyEntry current)]
  refine bind_congr fun next => ?_
  cases OrderedMap.get? inserted name <;> rfl

end Changes

end Documents

end ObjectStore
