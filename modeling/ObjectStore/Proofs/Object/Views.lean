import ObjectStore.Proofs.Object.Visible

/-!
# The two views of an object

A caller reads the fields of an object one by one, or all of them at once. One by one, the three names that callers use for the reserved fields are answered from these fields only. All at once, the fields of the data are written over the reserved ones, so a field of the record that goes by one of the three names shadows the reserved field. Nothing prevents a record that another program wrote from having such a field. The views differ there and nowhere else.
-/

namespace ObjectStore

namespace Object

variable {className : String} {record : Fields} {object : Object}

theorem distinct_data_of_readsAs (h : ReadsAs className record object) (hdistinct : record.Distinct) :
    OrderedMap.Distinct object.data := by
  rw [h.data]
  exact hdistinct.sublist ((OrderedMap.foldl_erase_sublist FieldName.reserved record).map Prod.fst)

theorem get?_data_of_symbolic (h : ReadsAs className record object) {key : String} (hkey : key ∈ symbolic) :
    OrderedMap.get? object.data key = OrderedMap.get? record key := by
  have hphysical : ∀ name ∈ symbolic, name ∉ FieldName.reserved := by
    decide
  rw [h.data, OrderedMap.get?_foldl_erase (hphysical key hkey)]

theorem get?_toFields_of_readsAs (h : ReadsAs className record object) (hdistinct : record.Distinct) (key : String) :
    OrderedMap.get? object.toFields key =
      (if key ∈ symbolic then OrderedMap.get? record key else none).or (object.get? key) := by
  rw [get?_toFields_eq_or object (distinct_data_of_readsAs h hdistinct)]
  by_cases hkey : key ∈ symbolic
  · rw [if_pos hkey, if_pos hkey, get?_data_of_symbolic h hkey]
  · rw [if_neg hkey, if_neg hkey, Option.or_none, Option.none_or, get?_of_not_symbolic object hkey]

/-- Under a name that callers use for a reserved field, all fields together have the field of the record that goes by this name, if there is one; otherwise they have what the object shows. So the views agree on a name unless callers use it for a reserved field and a field of the record goes by it that has another value. And the same names have entries in both unless it is the reserved field that is missing. -/
theorem views_agree_iff (hdistinct : record.Distinct) (hread : ofRecord className record = .ok object) (key : String) :
    OrderedMap.get? object.toFields key =
        (if key ∈ symbolic then OrderedMap.get? record key else none).or (object.get? key) ∧
      (OrderedMap.get? object.toFields key = object.get? key ↔
        (key ∈ symbolic → ∀ value, OrderedMap.get? record key = some value → object.get? key = some value)) ∧
      (OrderedMap.contains object.toFields key = (object.get? key).isSome ↔
        (key ∈ symbolic → OrderedMap.contains record key = true → (object.get? key).isSome = true)) := by
  have hfields := get?_toFields_of_readsAs (readsAs_of_ofRecord hread) hdistinct key
  refine ⟨hfields, ?_⟩
  rw [OrderedMap.contains, OrderedMap.contains, hfields]
  by_cases hkey : key ∈ symbolic
  · rw [if_pos hkey, forall_prop_of_true hkey, forall_prop_of_true hkey]
    cases OrderedMap.get? record key with
    | none =>
      rw [Option.none_or]
      refine ⟨iff_of_true rfl fun value hvalue => ?_, iff_of_true rfl fun hsome => ?_⟩
      · cases hvalue
      · cases hsome
    | some value =>
      rw [Option.some_or]
      constructor
      · simp [eq_comm]
      · simp
  · rw [if_neg hkey, Option.none_or]
    exact ⟨iff_of_true rfl fun h => absurd h hkey, iff_of_true rfl fun h => absurd h hkey⟩

/-- A record that another program wrote: its id is an integer, and a field goes by the name of callers with the same text. The views agree on both fields that the object shows. They differ on the null that goes by the name of a stamp. -/
theorem numbered_views_agree :
    let record : Fields := [("id", .string "7"), ("_id", .integer 7), ("name", .string "Rex"), ("updatedAt", .null)]
    record.Distinct ∧ ∃ object, ofRecord "Dog" record = .ok object ∧
      OrderedMap.get? object.toFields "id" = object.get? "id" ∧ OrderedMap.get? object.toFields "name" = object.get? "name" ∧
      OrderedMap.contains object.toFields "updatedAt" ≠ (object.get? "updatedAt").isSome := by
  intro record
  have hdistinct : record.Distinct := by
    decide
  have hread : ofRecord "Dog" record =
      .ok ⟨"Dog", some "7", none, none, [("id", .string "7"), ("name", .string "Rex"), ("updatedAt", .null)]⟩ := rfl
  refine ⟨hdistinct, _, hread, ?_, ?_, fun hsame => ?_⟩
  · exact (views_agree_iff hdistinct hread "id").2.1.mpr fun _ value hvalue => hvalue
  · exact (views_agree_iff hdistinct hread "name").2.1.mpr fun hname => absurd hname (by decide)
  · exact nomatch (views_agree_iff hdistinct hread "updatedAt").2.2.mp hsame (by decide) rfl

/-- A field of the record shadows the id of the object, and where the record has no id there is an entry for one all the same. -/
theorem named_field_shadows :
    (∃ object, ofRecord "Dog" [("_id", .string "A"), ("id", .string "B")] = .ok object ∧ object.get? "id" = some (.string "A") ∧
      OrderedMap.get? object.toFields "id" = some (.string "B")) ∧
    ∃ object, ofRecord "Dog" [("id", .string "B")] = .ok object ∧ object.get? "id" = none ∧
      OrderedMap.contains object.toFields "id" = true :=
  ⟨⟨_, rfl, rfl, rfl⟩, ⟨_, rfl, rfl, rfl⟩⟩

end Object

end ObjectStore
