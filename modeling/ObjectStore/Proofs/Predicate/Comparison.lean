import ObjectStore.Predicate.Evaluate
import ObjectStore.Proofs.Value.Loose
import ObjectStore.Update

/-!
# Comparisons of what a record holds

Comparisons, membership and the removal from arrays all go by loose equality. It is symmetric and the order of values is the same seen from either side, so the operands of a comparison can be swapped if the operator is flipped. And a field is found through its own value, by an equality, in a list or for removal, unless there is a NaN inside: a NaN is structurally equal to itself, and nothing is loosely equal to it.
-/

namespace ObjectStore

/-! ### Swapped operands -/

namespace Comparison

theorem holds_flipped {a b : Value} (ha : a.namesDistinct = true) (hb : b.namesDistinct = true) (op : Comparison) :
    op.flipped.holds b a = op.holds a b := by
  cases op with
  | equal | notEqual => simp only [flipped, holds, Value.looselyEquals_comm ha hb]
  | _ =>
    simp only [flipped, holds, Value.compare?_swap a b, Bool.or_comm b.isNull]
    cases a.compare? b with
    | none => rfl
    | some order => cases order <;> rfl

end Comparison

namespace Operand

/-- Whether the names of every object inside a literal are distinct. -/
def namesDistinct : Operand → Bool
  | key _ => true
  | literal value => value.namesDistinct

theorem namesDistinct_resolve {record : Fields} (hrecord : (Value.object record).namesDistinct = true) {operand : Operand}
    (h : operand.namesDistinct = true) : (operand.resolve record).namesDistinct = true := by
  cases operand with
  | literal value => exact h
  | key name =>
    rw [resolve]
    cases hvalue : OrderedMap.get? record name with
    | none => rfl
    | some value => exact (Value.namesDistinct_object_iff.mp hrecord).2 _ (OrderedMap.mem_of_get? hvalue)

end Operand

/-- A comparison whose operands are swapped and whose operator is flipped holds of the same records. For any two values, the order from the one side is the reverse of the order from the other side, and loose equality is symmetric. -/
theorem Predicate.holds_compare_flipped {record : Fields} (hrecord : (Value.object record).namesDistinct = true) {lhs rhs : Operand}
    (hlhs : lhs.namesDistinct = true) (hrhs : rhs.namesDistinct = true) (op : Comparison) :
    (compare op.flipped rhs lhs).holds record = (compare op lhs rhs).holds record ∧
      ∀ a b : Value, b.compare? a = (a.compare? b).map Ordering.swap ∧
        (a.namesDistinct = true → b.namesDistinct = true → b.looselyEquals a = a.looselyEquals b) := by
  refine ⟨?_, fun a b => ⟨a.compare?_swap b, Value.looselyEquals_comm⟩⟩
  rw [holds, holds]
  exact op.holds_flipped (Operand.namesDistinct_resolve hrecord hlhs) (Operand.namesDistinct_resolve hrecord hrhs)

/-- An infinity beside a field that is an integer, and a nested literal beside a field that is an object. -/
theorem Predicate.infinity_compare_flipped :
    let record : Fields := [("n", .integer 5), ("m", .object [("a", .integer 1), ("b", .array [.number Double.nan])])]
    let nested := Value.object [("b", .array [.number Double.nan]), ("a", .number ⟨0x3ff0000000000000⟩)]
    (Value.object record).namesDistinct = true ∧ (Operand.literal nested).namesDistinct = true ∧
      (compare .greaterOrEqual (.key "n") (.literal (.number (Double.infinity true)))).holds record =
          (compare .lessOrEqual (.literal (.number (Double.infinity true))) (.key "n")).holds record ∧
      (compare .equal (.key "m") (.literal nested)).holds record = (compare .equal (.literal nested) (.key "m")).holds record := by
  intro record nested
  have hrecord : (Value.object record).namesDistinct = true := by
    decide
  have hnested : (Operand.literal nested).namesDistinct = true := by
    decide
  exact ⟨hrecord, hnested, (holds_compare_flipped hrecord rfl rfl .lessOrEqual).1,
    (holds_compare_flipped hrecord hnested rfl .equal).1⟩

/-! ### A value among equal ones -/

namespace Value

theorem hasElement_array (items : List Value) (element : Value) :
    (array items).hasElement element = true ↔ ∃ item ∈ items, item.looselyEquals element = true := by
  rw [hasElement, List.any_eq_true]

theorem hasElement_of_mem {values : List Value} (hdistinct : (array values).namesDistinct = true) {value : Value}
    (hvalue : value ∈ values) : (array values).hasElement value = true ↔ value.lacksNaN = true := by
  have hnames := namesDistinct_array_iff.mp hdistinct
  rw [hasElement_array]
  constructor
  · rintro ⟨other, hother, hequal⟩
    exact lacksNaN_of_looselyEquals (looselyEquals_symm (hnames other hother) hequal)
  · intro hnan
    exact ⟨value, hvalue, (looselyEquals_iff_of_same (same_self (hnames value hvalue))).mpr hnan⟩

end Value

namespace Update

/-- What is left of an array after the removal of values: the items that none of them is loosely equal to. -/
def remaining (values items : List Value) : List Value := items.filter fun item => !values.any fun value => value.looselyEquals item

theorem apply_removeAll (values items : List Value) :
    (removeAll values).apply (some (.array items)) = .ok (some (.array (remaining values items))) := rfl

theorem mem_remaining_iff {values items : List Value} (hvalues : (Value.array values).namesDistinct = true)
    (hitems : (Value.array items).namesDistinct = true) {item value : Value} (hitem : item ∈ items) (hvalue : value ∈ values)
    (h : value.same item = true) : item ∈ remaining values items ↔ item.lacksNaN = false := by
  have hnames := Value.namesDistinct_array_iff.mp hvalues
  have hown := Value.namesDistinct_array_iff.mp hitems item hitem
  rw [remaining, List.mem_filter, Bool.not_eq_true', List.any_eq_false, and_iff_right hitem]
  constructor
  · intro hremains
    refine Bool.eq_false_iff.mpr fun hnan => hremains value hvalue ?_
    have hback : item.same value = true := by
      rw [Value.same_comm (hnames value hvalue) hown, h]
    exact Value.looselyEquals_symm hown ((Value.looselyEquals_iff_of_same hback).mpr hnan)
  · intro hnan other hother hequal
    rw [Value.lacksNaN_of_looselyEquals (Value.looselyEquals_symm (hnames other hother) hequal)] at hnan
    cases hnan

end Update

/-- A value is loosely equal to those that it structurally equals unless there is a NaN inside. So a record satisfies the equality with its own field and the membership in a list that has its own field, and the removal of values leaves no item that equals one of them, each unless there is a NaN inside; with a NaN none of this is so. -/
theorem Value.equal_found_iff_lacksNaN (value : Value) :
    (∀ other : Value, value.same other = true → (value.looselyEquals other = true ↔ value.lacksNaN = true)) ∧
      (∀ (record : Fields) (key : String), OrderedMap.get? record key = some value → value.namesDistinct = true →
        ((Predicate.compare .equal (.key key) (.literal value)).holds record = true ↔ value.lacksNaN = true) ∧
          ∀ values : List Value, value ∈ values → (array values).namesDistinct = true →
            ((Predicate.elementOf (.key key) (.literal (.array values))).holds record = true ↔ value.lacksNaN = true)) ∧
      ∀ values items : List Value, value ∈ values → (array values).namesDistinct = true → (array items).namesDistinct = true →
        ∃ kept, (Update.removeAll values).apply (some (.array items)) = .ok (some (.array kept)) ∧ kept.Sublist items ∧
          ∀ item ∈ items, value.same item = true → (item ∈ kept ↔ item.lacksNaN = false) := by
  refine ⟨fun other => looselyEquals_iff_of_same, fun record key hget hvalue => ?_, fun values items hmem hvalues hitems => ?_⟩
  · have hown : Operand.resolve record (.key key) = value := by
      rw [Operand.resolve, hget, Option.getD_some]
    rw [Predicate.holds, hown]
    refine ⟨looselyEquals_iff_of_same (same_self hvalue), fun values hmem hvalues => ?_⟩
    rw [Predicate.holds, hown]
    exact hasElement_of_mem hvalues hmem
  · exact ⟨_, Update.apply_removeAll values items, List.filter_sublist, fun item hitem =>
      Update.mem_remaining_iff hvalues hitems hitem hmem⟩

/-- A NaN equals itself, and yet it is not loosely equal to itself, no filter finds the field that holds it, and it is not removed. -/
theorem Value.nan_not_found :
    let nan := number Double.nan
    let record : Fields := [("x", nan)]
    nan.same nan = true ∧ nan.looselyEquals nan = false ∧
      (Predicate.compare .equal (.key "x") (.literal nan)).holds record = false ∧
      (Predicate.elementOf (.key "x") (.literal (.array [nan]))).holds record = false ∧
      (Update.removeAll [nan]).apply (some (.array [nan])) = .ok (some (.array [nan])) :=
  ⟨by decide, by decide, by decide, by decide, rfl⟩

/-- An object is found and removed under another order of its fields and another scale of its decimal. -/
theorem Value.reordered_found :
    let value := object [("a", decimal ⟨15, 1⟩), ("b", array [null])]
    let other := object [("b", array [null]), ("a", decimal ⟨150, 2⟩)]
    let record : Fields := [("x", value)]
    value.namesDistinct = true ∧ (array [other, value]).namesDistinct = true ∧ value.lacksNaN = true ∧
      other.same value = true ∧ other.looselyEquals value = true ∧
      (Predicate.compare .equal (.key "x") (.literal value)).holds record = true ∧
      (Predicate.elementOf (.key "x") (.literal (.array [other, value]))).holds record = true ∧
      ∃ kept, (Update.removeAll [other, value]).apply (some (.array [value, null])) = .ok (some (.array kept)) ∧ value ∉ kept := by
  intro value other record
  have hvalue : value.namesDistinct = true := by
    decide
  have hvalues : (array [other, value]).namesDistinct = true := by
    decide
  have hnan : value.lacksNaN = true := by
    decide
  have hsame : other.same value = true := by
    decide +kernel
  obtain ⟨-, hfound, -⟩ := equal_found_iff_lacksNaN value
  obtain ⟨hequal, -, hremoved⟩ := equal_found_iff_lacksNaN other
  obtain ⟨hfilter, hmember⟩ := hfound record "x" rfl hvalue
  obtain ⟨kept, hkept, -, hremains⟩ := hremoved [other, value] [value, null] List.mem_cons_self hvalues (by decide)
  refine ⟨hvalue, hvalues, hnan, hsame, (hequal value hsame).mpr (by decide), hfilter.mpr hnan,
    (hmember _ (by simp) hvalues).mpr hnan, kept, hkept, fun hmem => ?_⟩
  have hinside := (hremains value (by simp) hsame).mp hmem
  cases hinside.symm.trans hnan

end ObjectStore
