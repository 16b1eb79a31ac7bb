import ObjectStore.Proofs.Predicate

/-!
# Stored records and the objects that callers see

A record is stored under physical names, and its object shows the same values under the names that callers use. A null in a reserved field of the record is no field of the object at all, but a predicate cannot tell the two apart. So it says of the object what it says, put into the names of storage, of the record.
-/

namespace ObjectStore

theorem OrderedMap.get?_filterMap {α : Type} (value? : String → Option α) (names : List String) (key : String) :
    get? (names.filterMap fun name => (value? name).map fun value => (name, value)) key =
      if key ∈ names then value? key else none := by
  induction names with
  | nil => rfl
  | cons name names ih =>
    rw [List.filterMap_cons]
    by_cases hname : key = name
    · subst hname
      rw [if_pos List.mem_cons_self]
      cases hvalue : value? key with
      | none =>
        rw [hvalue, ite_self] at ih
        exact ih
      | some value => exact if_pos rfl
    · have hmem : key ∈ name :: names ↔ key ∈ names := List.mem_cons.trans (or_iff_right hname)
      simp only [hmem, ← ih]
      cases value? name with
      | none => rfl
      | some value => exact if_neg (Ne.symm hname)

namespace Object

/-- Among all fields of an object, those of its data shadow the reserved ones. -/
theorem get?_toFields_eq_or (object : Object) (hdistinct : OrderedMap.Distinct object.data) (key : String) :
    OrderedMap.get? object.toFields key = (OrderedMap.get? object.data key).or (if key ∈ symbolic then object.get? key else none) := by
  rw [toFields, OrderedMap.get?_extend hdistinct, OrderedMap.get?_filterMap object.get?]
  rfl

theorem get?_toFields (object : Object) (hdistinct : OrderedMap.Distinct object.data)
    (hdata : ∀ name ∈ symbolic, name ∉ OrderedMap.keys object.data) (key : String) :
    OrderedMap.get? object.toFields key = object.get? key := by
  rw [get?_toFields_eq_or object hdistinct]
  by_cases hkey : key ∈ symbolic
  · rw [if_pos hkey, OrderedMap.get?_eq_none_iff.mpr (hdata key hkey), Option.none_or]
  · rw [if_neg hkey, Option.or_none, get?_of_not_symbolic object hkey]

end Object

/-- Whether a record is as storage holds it: a reserved field is null or missing, or else a string in the case of the id and an instant in the case of the stamps, and no field goes by a name that callers use for one of these. -/
structure Fields.IsStored (record : Fields) : Prop where
  distinct : OrderedMap.Distinct record
  id : ∀ value, OrderedMap.get? record FieldName.physicalId = some value → value = .null ∨ ∃ text, value = .string text
  stamps : ∀ name ∈ [FieldName.physicalCreatedAt, FieldName.physicalUpdatedAt], ∀ value,
    OrderedMap.get? record name = some value → value = .null ∨ ∃ t, value = .timestamp t
  unnamed : ∀ name ∈ Object.symbolic, name ∉ OrderedMap.keys record

namespace Object

theorem exists_idOfValue {value? : Option Value} (h : ∀ value, value? = some value → value = .null ∨ ∃ text, value = .string text) :
    ∃ id, idOfValue value? = .ok id ∧ (id.map .string).getD .null = value?.getD .null := by
  cases value? with
  | none => exact ⟨none, rfl, rfl⟩
  | some value => rcases h value rfl with rfl | ⟨text, rfl⟩ <;> exact ⟨_, rfl, rfl⟩

theorem exists_stampOfValue {value? : Option Value} (h : ∀ value, value? = some value → value = .null ∨ ∃ t, value = .timestamp t) :
    ∃ stamp, stampOfValue value? = .ok stamp ∧ (stamp.map .timestamp).getD .null = value?.getD .null := by
  cases value? with
  | none => exact ⟨none, rfl, rfl⟩
  | some value => rcases h value rfl with rfl | ⟨t, rfl⟩ <;> exact ⟨_, rfl, rfl⟩

/-- A stored record can be read, and what its object shows is in the record under the physical name. -/
theorem ofRecord_of_isStored {record : Fields} (h : record.IsStored) (className : String) :
    ∃ object, ofRecord className record = .ok object ∧
      ∀ key ∉ FieldName.reserved, Fields.ShowsAs FieldName.toPhysical object.toFields record key := by
  obtain ⟨id, hid, hidShown⟩ := exists_idOfValue h.id
  obtain ⟨created, hcreated, hcreatedShown⟩ := exists_stampOfValue (h.stamps FieldName.physicalCreatedAt (by decide))
  obtain ⟨updated, hupdated, hupdatedShown⟩ := exists_stampOfValue (h.stamps FieldName.physicalUpdatedAt (by decide))
  let object : Object := ⟨className, id, created, updated, FieldName.reserved.foldl OrderedMap.erase record⟩
  have hread : ofRecord className record = .ok object := by
    rw [ofRecord, hid, hcreated, hupdated]
    rfl
  have hsublist : (OrderedMap.keys object.data).Sublist (OrderedMap.keys record) :=
    (OrderedMap.foldl_erase_sublist FieldName.reserved record).map Prod.fst
  have hfields := get?_toFields object (h.distinct.sublist hsublist) fun name hname hmem =>
    h.unnamed name hname (hsublist.subset hmem)
  refine ⟨object, hread, fun key hkey => ?_⟩
  rw [Fields.ShowsAs, Operand.resolve, Operand.resolve, hfields key]
  by_cases hsymbolic : key ∈ symbolic
  · simp only [symbolic, List.mem_cons, List.not_mem_nil, or_false] at hsymbolic
    rcases hsymbolic with rfl | rfl | rfl
    · exact hidShown.symm
    · exact hcreatedShown.symm
    · exact hupdatedShown.symm
  · have hplain : FieldName.isReserved key = false := FieldName.not_isReserved_iff.mpr ⟨?_, hkey⟩
    · rw [FieldName.toPhysical_of_not_reserved hplain, get?_of_not_symbolic object hsymbolic, OrderedMap.get?_foldl_erase hkey]
    · simpa [symbolic] using hsymbolic

/-- Filtering stored records is filtering the objects that callers see. A stored record can be read, and a predicate without physical names, put into the names of storage, holds of the record exactly if it holds of the fields of the object. It then reads the same fields in the same order, each by its physical name. -/
theorem filters_see_objects (className : String) {record : Fields} (h : record.IsStored) {predicate : Predicate}
    (hkeys : ∀ key ∈ predicate.keys, key ∉ FieldName.reserved) :
    (∃ object, ofRecord className record = .ok object ∧ predicate.toPhysical.holds record = predicate.holds object.toFields) ∧
      predicate.toPhysical.keys = predicate.keys.map FieldName.toPhysical := by
  obtain ⟨object, hread, hshows⟩ := ofRecord_of_isStored h className
  exact ⟨⟨object, hread, predicate.holds_mapKeys fun key hkey => hshows key (hkeys key hkey)⟩, predicate.keys_mapKeys⟩

/-- A record with a null and a missing stamp. -/
def unstamped : Fields := [("name", .string "Rex"), ("_created_at", .null), ("_id", .string "A")]

theorem isStored_unstamped : unstamped.IsStored where
  distinct := by decide
  id := fun value hvalue => .inr ⟨"A", (Option.some.inj hvalue).symm⟩
  stamps := List.forall_mem_cons.mpr
    ⟨fun value hvalue => .inl (Option.some.inj hvalue).symm, List.forall_mem_singleton.mpr fun value hvalue => nomatch hvalue⟩
  unnamed := by decide

/-- A conjunction that reads the id and both stamps, one of which is null in that record and one missing. -/
def unstampedDogs : Predicate :=
  .all [.compare .equal (.key "createdAt") (.key "updatedAt"), .not (.pattern .startsWith "updatedAt" ""),
    .notBetween (.key "name") (.literal (.string "a")) (.key "id"), .elementOf (.key "id") (.literal (.array [.null, .string "A"]))]

theorem unstamped_seen :
    unstamped.IsStored ∧ (∀ key ∈ unstampedDogs.keys, key ∉ FieldName.reserved) ∧
      (∃ object, ofRecord "Dog" unstamped = .ok object ∧ unstampedDogs.holds object.toFields = true) ∧
      unstampedDogs.toPhysical.keys = ["_created_at", "_updated_at", "_updated_at", "name", "_id", "_id"] := by
  have hkeys : ∀ key ∈ unstampedDogs.keys, key ∉ FieldName.reserved := by
    decide
  obtain ⟨⟨object, hread, hsame⟩, hrenamed⟩ := filters_see_objects "Dog" isStored_unstamped hkeys
  have hholds : unstampedDogs.toPhysical.holds unstamped = true := rfl
  exact ⟨isStored_unstamped, hkeys, ⟨object, hread, hsame.symm.trans hholds⟩, hrenamed.trans rfl⟩

end Object

end ObjectStore
