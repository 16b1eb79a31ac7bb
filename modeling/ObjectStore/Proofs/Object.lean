import ObjectStore.Object
import ObjectStore.Proofs.OrderedMap
import ObjectStore.Proofs.Outcome
import ObjectStore.Proofs.Update

/-!
# Reserved names, objects and drafts

A name that passes the check for reserved names is stored as it is, so updates and fields that passed it leave the reserved fields of a stored record alone. An object shows under such a name what its record has under it, and a draft previews what its mutations make of that.
-/

namespace ObjectStore

namespace FieldName

theorem rejectReserved_eq_ok_iff {names : List String} :
    rejectReserved names = .ok () ↔ ∀ name ∈ names, isReserved name = false := by
  rw [rejectReserved]
  cases hfind : names.find? isReserved with
  | none => simpa using hfind
  | some name =>
    have hreserved := List.find?_some hfind
    have hmem := List.mem_of_find?_eq_some hfind
    simp only [reduceCtorEq, false_iff, Classical.not_forall]
    exact ⟨name, hmem, by simp [hreserved]⟩

theorem not_isReserved_iff {name : String} :
    isReserved name = false ↔ (name ≠ id ∧ name ≠ createdAt ∧ name ≠ updatedAt) ∧ name ∉ reserved := by
  simp only [isReserved, Bool.or_eq_false_iff, List.contains_eq_mem, decide_eq_false_iff_not, List.mem_cons, List.not_mem_nil,
    or_false, not_or]

theorem toPhysical_of_not_reserved {name : String} (h : isReserved name = false) : toPhysical name = name := by
  obtain ⟨⟨hid, hcreated, hupdated⟩, -⟩ := not_isReserved_iff.mp h
  rw [toPhysical, if_neg hid, if_neg hcreated, if_neg hupdated]

/-- Only names that are not reserved are renamed to such names, each to itself. -/
theorem toPhysical_eq_iff {name other : String} (h : isReserved name = false) :
    toPhysical other = name ↔ other = name := by
  constructor
  · intro hrenamed
    obtain ⟨-, hphysical⟩ := not_isReserved_iff.mp h
    rw [toPhysical] at hrenamed
    split at hrenamed
    · exact absurd (hrenamed ▸ List.mem_cons_self) hphysical
    split at hrenamed
    · exact absurd (hrenamed ▸ List.mem_cons_of_mem _ List.mem_cons_self) hphysical
    split at hrenamed
    · exact absurd (hrenamed ▸ List.mem_cons_of_mem _ (List.mem_cons_of_mem _ List.mem_cons_self)) hphysical
    · exact hrenamed
  · rintro rfl
    exact toPhysical_of_not_reserved h

theorem isReserved_of_mem {name : String} (h : name ∈ [id, createdAt, updatedAt] ++ reserved) : isReserved name = true := by
  simpa [isReserved, or_assoc] using h

end FieldName

theorem NameSet.mem_toPhysical_iff {names : NameSet} {name : String} :
    name ∈ names.toPhysical ↔ name ∈ FieldName.reserved ∨ ∃ other ∈ names, FieldName.toPhysical other = name := by
  rw [NameSet.toPhysical, NameSet.ofList, List.mem_eraseDups, List.mem_append, List.mem_map]

theorem not_mem_keys_toPhysical {α : Type} {map : OrderedMap α}
    (h : ∀ name ∈ OrderedMap.keys map, FieldName.isReserved name = false) {name : String}
    (hname : FieldName.isReserved name = true) : name ∉ OrderedMap.keys (OrderedMap.mapKeys FieldName.toPhysical map) := by
  intro hmem
  obtain ⟨value, hentry⟩ := OrderedMap.mem_keys_iff.mp hmem
  obtain ⟨original, horiginal, hrenamed⟩ := OrderedMap.mem_mapKeys hentry
  have hplain := h original (OrderedMap.mem_keys_iff.mpr ⟨value, horiginal⟩)
  rw [FieldName.toPhysical_of_not_reserved hplain] at hrenamed
  rw [hrenamed, hname] at hplain
  cases hplain

namespace Fields

theorem distinct_stamped (id now : Value) (fields : Fields) : OrderedMap.Distinct (Fields.stamped id now fields) := by
  have hreserved : FieldName.reserved.Nodup := by decide
  refine OrderedMap.distinct_extend ?_ fields
  exact hreserved

theorem get?_stamped_of_not_reserved {fields : Fields} (hdistinct : OrderedMap.Distinct fields) (id now : Value) {key : String}
    (hkey : FieldName.isReserved key = false) : OrderedMap.get? (Fields.stamped id now fields) key = OrderedMap.get? fields key := by
  have hnone : OrderedMap.get? [(FieldName.physicalId, id), (FieldName.physicalCreatedAt, now), (FieldName.physicalUpdatedAt, now)]
      key = none := OrderedMap.get?_eq_none_iff.mpr (FieldName.not_isReserved_iff.mp hkey).2
  rw [Fields.stamped, OrderedMap.get?_extend hdistinct, hnone, Option.or_none]

theorem get?_stamped {fields : Fields} (h : ∀ name ∈ OrderedMap.keys fields, FieldName.isReserved name = false)
    (id now : Value) {name : String} (hname : FieldName.isReserved name = true) :
    OrderedMap.get? (Fields.stamped id now fields) name =
      OrderedMap.get? [(FieldName.physicalId, id), (FieldName.physicalCreatedAt, now), (FieldName.physicalUpdatedAt, now)]
        name := by
  apply OrderedMap.get?_extend_of_not_mem
  intro hmem
  rw [h name hmem] at hname
  cases hname

end Fields

namespace Object

/-- A record whose id is a string or missing and whose stamps are instants or missing can be read. -/
theorem ofRecord_eq_ok {record : Fields} (className : String)
    (hid : OrderedMap.get? record FieldName.physicalId = none ∨
      ∃ id, OrderedMap.get? record FieldName.physicalId = some (.string id))
    (hstamps : ∀ name ∈ [FieldName.physicalCreatedAt, FieldName.physicalUpdatedAt],
      OrderedMap.get? record name = none ∨ ∃ t, OrderedMap.get? record name = some (.timestamp t)) :
    ∃ object, Object.ofRecord className record = .ok object := by
  obtain ⟨id, hid⟩ : ∃ id, idOfValue (OrderedMap.get? record FieldName.physicalId) = .ok id := by
    rcases hid with h | ⟨id, h⟩ <;> rw [h] <;> exact ⟨_, rfl⟩
  have hstamp (name) (hname : name ∈ [FieldName.physicalCreatedAt, FieldName.physicalUpdatedAt]) :
      ∃ stamp, stampOfValue (OrderedMap.get? record name) = .ok stamp := by
    rcases hstamps name hname with h | ⟨t, h⟩ <;> rw [h] <;> exact ⟨_, rfl⟩
  obtain ⟨created, hcreated⟩ := hstamp FieldName.physicalCreatedAt (by simp)
  obtain ⟨updated, hupdated⟩ := hstamp FieldName.physicalUpdatedAt (by simp)
  simp only [Object.ofRecord, hid, hcreated, hupdated]
  exact ⟨_, rfl⟩

theorem raceless_idOfValue (value? : Option Value) : Outcome.Raceless (idOfValue value?) := by
  unfold idOfValue
  split <;> first | exact .ok _ | exact .error rfl

theorem raceless_stampOfValue (value? : Option Value) : Outcome.Raceless (stampOfValue value?) := by
  unfold stampOfValue
  split
  · exact .ok _
  · exact .ok _
  · refine Outcome.Raceless.map ?_ some
    unfold Value.toInstant
    split
    · exact .ok _
    · rw [DateStrategy.decode]
      split
      · exact .ok _
      · exact .error rfl

theorem raceless_ofRecord (className : String) (record : Fields) : Outcome.Raceless (ofRecord className record) :=
  (raceless_idOfValue _).bind fun _ => (raceless_stampOfValue _).bind fun _ => (raceless_stampOfValue _).bind fun _ => .ok _

/-- The names that callers use for the reserved fields. -/
def symbolic : List String := [FieldName.id, FieldName.createdAt, FieldName.updatedAt]

theorem get?_of_not_symbolic (object : Object) {key : String} (hkey : key ∉ symbolic) :
    object.get? key = OrderedMap.get? object.data key := by
  simp only [symbolic, List.mem_cons, List.not_mem_nil, or_false, not_or] at hkey
  obtain ⟨hid, hcreated, hupdated⟩ := hkey
  rw [get?, if_neg hid, if_neg hcreated, if_neg hupdated]

theorem get?_of_not_reserved (object : Object) {key : String} (hkey : FieldName.isReserved key = false) :
    object.get? key = OrderedMap.get? object.data key := by
  refine object.get?_of_not_symbolic ?_
  simpa [symbolic] using (FieldName.not_isReserved_iff.mp hkey).1

/-- What a record is read as. -/
structure ReadsAs (className : String) (record : Fields) (object : Object) : Prop where
  className : object.className = className
  id : idOfValue (OrderedMap.get? record FieldName.physicalId) = .ok object.id
  data : object.data = FieldName.reserved.foldl OrderedMap.erase record

theorem readsAs_of_ofRecord {className : String} {record : Fields} {object : Object} (h : ofRecord className record = .ok object) :
    ReadsAs className record object := by
  obtain ⟨id, hid, hrest⟩ := Outcome.bind_eq_ok_iff.mp h
  obtain ⟨created, -, hrest⟩ := Outcome.bind_eq_ok_iff.mp hrest
  obtain ⟨updated, -, hrest⟩ := Outcome.bind_eq_ok_iff.mp hrest
  obtain rfl := Except.ok.inj hrest
  exact ⟨rfl, hid, rfl⟩

namespace ReadsAs

variable {className : String} {record : Fields} {object : Object} (h : ReadsAs className record object)

include h

theorem id_eq {id : String} (hid : OrderedMap.get? record FieldName.physicalId = some (.string id)) : object.id = some id := by
  have hread := h.id
  rw [hid] at hread
  exact (Except.ok.inj hread).symm

theorem get?_eq {key : String} (hkey : FieldName.isReserved key = false) : object.get? key = OrderedMap.get? record key := by
  rw [get?_of_not_reserved object hkey, h.data, OrderedMap.get?_foldl_erase (FieldName.not_isReserved_iff.mp hkey).2]

end ReadsAs

end Object

namespace Draft

variable {draft : Draft} (hmutations : OrderedMap.Distinct draft.mutations)

include hmutations

/-- A draft previews what its mutations make of the fields that its object shows. -/
theorem preview_eq {fields result : Fields} (hfields : OrderedMap.Distinct fields) (h : draft.mutations.applyTo fields = .ok result)
    {key : String} (hget : draft.object.get? key = OrderedMap.get? fields key) :
    draft.preview key = .ok (OrderedMap.get? result key) := by
  rw [preview, hget]
  cases hupdate : OrderedMap.get? draft.mutations key with
  | none => rw [Updates.get?_applyTo_of_not_mem h (OrderedMap.get?_eq_none_iff.mp hupdate)]
  | some update => exact Updates.apply_of_applyTo hmutations hfields h hupdate

variable {className key : String} {object : Object} {id stamp : Value} (hkey : FieldName.isReserved key = false)

include hkey

/-- The object of a record that is made of the draft shows what the draft previews. -/
theorem preview_inserted (hdata : OrderedMap.Distinct draft.object.data) {fields : Fields} (hfields : draft.insertFields = .ok fields)
    (hread : Object.ReadsAs className (Fields.stamped id stamp fields) object) : draft.preview key = .ok (object.get? key) := by
  rw [hread.get?_eq hkey, Fields.get?_stamped_of_not_reserved (Updates.distinct_applyTo hfields hdata) id stamp hkey]
  exact preview_eq hmutations hdata hfields (draft.object.get?_of_not_reserved hkey)

/-- So does the object of a record that the draft's object was read from and that is then updated. -/
theorem preview_updated {before updated : Fields} (hbefore : Object.ReadsAs className before draft.object)
    (hdistinct : OrderedMap.Distinct before) (happlied : draft.mutations.applyTo before = .ok updated)
    (hread : Object.ReadsAs className (OrderedMap.insert updated FieldName.physicalUpdatedAt stamp) object) :
    draft.preview key = .ok (object.get? key) := by
  have hne : FieldName.physicalUpdatedAt ≠ key := by
    rintro rfl
    exact absurd hkey (by decide)
  rw [hread.get?_eq hkey, OrderedMap.get?_insert_of_ne hne]
  exact preview_eq hmutations hdistinct happlied (hbefore.get?_eq hkey)

end Draft

end ObjectStore
