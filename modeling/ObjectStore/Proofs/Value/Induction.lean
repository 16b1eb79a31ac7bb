import ObjectStore.Number.DecimalText
import ObjectStore.Value

/-!
# Induction over values

A fact about all values is proved for scalars, for arrays from their items and for objects from their fields. In the same way a test of single values is asked of a value and of everything inside it.
-/

namespace ObjectStore

namespace Value

/-- Whether a value has no values inside. -/
def isScalar : Value → Bool
  | array _ | object _ => false
  | _ => true

mutual

theorem nestedInduction {motive : Value → Prop} (scalar : ∀ value, value.isScalar = true → motive value)
    (array : ∀ items, (∀ item ∈ items, motive item) → motive (.array items))
    (object : ∀ fields, (∀ entry ∈ fields, motive entry.2) → motive (.object fields)) (value : Value) : motive value :=
  match value with
  | .array items => array items (nestedInduction_items scalar array object items)
  | .object fields => object fields (nestedInduction_fields scalar array object fields)
  | .null | .boolean _ | .string _ | .integer _ | .number _ | .decimal _ | .timestamp _ | .date _ | .time _ | .binary _ =>
    scalar _ rfl

theorem nestedInduction_items {motive : Value → Prop} (scalar : ∀ value, value.isScalar = true → motive value)
    (array : ∀ items, (∀ item ∈ items, motive item) → motive (.array items))
    (object : ∀ fields, (∀ entry ∈ fields, motive entry.2) → motive (.object fields)) (items : List Value) :
    ∀ item ∈ items, motive item :=
  match items with
  | [] => fun _ h => absurd h List.not_mem_nil
  | first :: rest =>
    List.forall_mem_cons.mpr
      ⟨nestedInduction scalar array object first, nestedInduction_items scalar array object rest⟩

theorem nestedInduction_fields {motive : Value → Prop} (scalar : ∀ value, value.isScalar = true → motive value)
    (array : ∀ items, (∀ item ∈ items, motive item) → motive (.array items))
    (object : ∀ fields, (∀ entry ∈ fields, motive entry.2) → motive (.object fields)) (fields : List (String × Value)) :
    ∀ entry ∈ fields, motive entry.2 :=
  match fields with
  | [] => fun _ h => absurd h List.not_mem_nil
  | (_, first) :: rest =>
    List.forall_mem_cons.mpr
      ⟨nestedInduction scalar array object first, nestedInduction_fields scalar array object rest⟩

end

mutual

/-- Whether a test holds of a value and of all values inside it. -/
def everywhere (test : Value → Bool) : Value → Bool
  | array items => test (array items) && itemsEverywhere test items
  | object fields => test (object fields) && fieldsEverywhere test fields
  | scalar => test scalar
termination_by structural value => value

def itemsEverywhere (test : Value → Bool) : List Value → Bool
  | [] => true
  | item :: items => everywhere test item && itemsEverywhere test items
termination_by structural items => items

def fieldsEverywhere (test : Value → Bool) : List (String × Value) → Bool
  | [] => true
  | (_, value) :: fields => everywhere test value && fieldsEverywhere test fields
termination_by structural fields => fields

end

variable {test : Value → Bool}

theorem itemsEverywhere_eq_all (items : List Value) : itemsEverywhere test items = items.all (everywhere test) := by
  induction items with
  | nil => rfl
  | cons item items ih => rw [itemsEverywhere, ih, List.all_cons]

theorem fieldsEverywhere_eq_all (fields : List (String × Value)) :
    fieldsEverywhere test fields = fields.all fun entry => everywhere test entry.2 := by
  induction fields with
  | nil => rfl
  | cons entry fields ih => rw [fieldsEverywhere, ih, List.all_cons]

theorem everywhere_array_iff {items : List Value} :
    everywhere test (.array items) = true ↔ test (.array items) = true ∧ ∀ item ∈ items, everywhere test item = true := by
  rw [everywhere, itemsEverywhere_eq_all, Bool.and_eq_true, List.all_eq_true]

theorem everywhere_object_iff {fields : List (String × Value)} :
    everywhere test (.object fields) = true ↔
      test (.object fields) = true ∧ ∀ entry ∈ fields, everywhere test entry.2 = true := by
  rw [everywhere, fieldsEverywhere_eq_all, Bool.and_eq_true, List.all_eq_true]

/-- A test of everything inside a value is a test of the value itself. -/
theorem test_of_everywhere {value : Value} (h : everywhere test value = true) : test value = true := by
  cases value with
  | array items => exact (everywhere_array_iff.mp h).1
  | object fields => exact (everywhere_object_iff.mp h).1
  | _ => exact h

/-! ### Values as the library builds them -/

/-- Whether the names of an object are distinct and the scale of a decimal fits its word. -/
def isWellBuilt : Value → Bool
  | object fields => decide (OrderedMap.keys fields).Nodup
  | decimal d => Decimal.scaleFits d.scale
  | _ => true

/-- Whether a value is well built at every depth. -/
def wellFormed (value : Value) : Bool := everywhere isWellBuilt value

theorem wellFormed_object_iff {fields : List (String × Value)} :
    wellFormed (.object fields) = true ↔ OrderedMap.Distinct fields ∧ ∀ entry ∈ fields, wellFormed entry.2 = true := by
  rw [wellFormed, everywhere_object_iff, isWellBuilt, decide_eq_true_iff]
  rfl

end Value

end ObjectStore
