import ObjectStore.Proofs.OrderedMap
import ObjectStore.Proofs.Outcome
import ObjectStore.Query

/-!
# Updates of a record

The fields of a record are updated independently of each other: each by its own update, from its own value. An update that does not fit the value fails for that value alone, and so for no race.
-/

namespace ObjectStore

namespace Updates

theorem applyTo_cons (key : String) (update : Update) (rest : Updates) (record : Fields) :
    applyTo ((key, update) :: rest) record =
      (update.apply (OrderedMap.get? record key)).bind fun value => applyTo rest (OrderedMap.put record key value) := by
  show ((update.apply (OrderedMap.get? record key)).bind fun value => .ok (OrderedMap.put record key value)).bind
    (fun record => applyTo rest record) = _
  cases update.apply (OrderedMap.get? record key) <;> rfl

theorem get?_applyTo_of_not_mem {updates : Updates} {record result : Fields} (h : updates.applyTo record = .ok result)
    {key : String} (hkey : key ∉ OrderedMap.keys updates) : OrderedMap.get? result key = OrderedMap.get? record key := by
  induction updates generalizing record with
  | nil =>
    obtain rfl := Except.ok.inj h
    rfl
  | cons entry rest ih =>
    obtain ⟨name, update⟩ := entry
    simp only [OrderedMap.keys, List.map_cons, List.mem_cons, not_or] at hkey
    rw [applyTo_cons] at h
    obtain ⟨value, -, hrest⟩ := Outcome.bind_eq_ok_iff.mp h
    rw [ih hrest hkey.2, OrderedMap.get?_put_of_ne (Ne.symm hkey.1)]

theorem distinct_applyTo {updates : Updates} {record result : Fields} (h : updates.applyTo record = .ok result)
    (hdistinct : record.Distinct) : result.Distinct := by
  induction updates generalizing record with
  | nil =>
    obtain rfl := Except.ok.inj h
    exact hdistinct
  | cons entry rest ih =>
    obtain ⟨name, update⟩ := entry
    rw [applyTo_cons] at h
    obtain ⟨value, -, hrest⟩ := Outcome.bind_eq_ok_iff.mp h
    exact ih hrest (OrderedMap.distinct_put hdistinct name value)

/-- Every field is what its own update makes of it, and the other fields stay. -/
theorem apply_of_applyTo {updates : Updates} (hupdates : updates.Distinct) {record result : Fields} (hrecord : record.Distinct)
    (h : updates.applyTo record = .ok result) {key : String} {update : Update}
    (hkey : OrderedMap.get? updates key = some update) :
    update.apply (OrderedMap.get? record key) = .ok (OrderedMap.get? result key) := by
  induction updates generalizing record with
  | nil => cases hkey
  | cons entry rest ih =>
    obtain ⟨name, first⟩ := entry
    obtain ⟨hname, hrest⟩ := List.nodup_cons.mp hupdates
    rw [applyTo_cons] at h
    obtain ⟨value, hvalue, hothers⟩ := Outcome.bind_eq_ok_iff.mp h
    rw [OrderedMap.get?_cons] at hkey
    split at hkey
    · next same =>
      subst same
      cases hkey
      rw [get?_applyTo_of_not_mem hothers hname, OrderedMap.get?_put_self hrecord, hvalue]
    · next hne =>
      have hlater := ih hrest (OrderedMap.distinct_put hrecord name value) hothers hkey
      rwa [OrderedMap.get?_put_of_ne hne] at hlater

end Updates

/-- What an update starts from. An absent field and null are no value to start from. -/
def Update.present (current : Option Value) : Option Value := current.filter fun value => !value.isNull

/-! ### Numeric updates -/

theorem Arithmetic.operand_eq_ok_iff {value result : Value} :
    Arithmetic.operand value = .ok result ↔ value.isNumeric = true ∧ value = result := by
  rw [Arithmetic.operand]
  split
  · next hnumeric => rw [Except.ok.injEq, and_iff_right hnumeric]
  · next hother => exact iff_of_false nofun fun h => hother h.1

theorem Arithmetic.isNumeric_of_apply {op : Arithmetic} {a b result : Value} (h : op.apply a b = .ok result) :
    b.isNumeric = true := by
  obtain ⟨first, -, hrest⟩ := Outcome.bind_eq_ok_iff.mp h
  obtain ⟨second, hsecond, -⟩ := Outcome.bind_eq_ok_iff.mp hrest
  exact (operand_eq_ok_iff.mp hsecond).1

theorem Update.isNumeric_of_apply {value : Value} {current result : Option Value} {update : Update}
    (hupdate : update = .increment value ∨ update = .multiply value) (h : update.apply current = .ok result) :
    value.isNumeric = true := by
  rw [Update.apply] at h
  generalize current.filter (fun value => !value.isNull) = present at h
  rcases hupdate with rfl | rfl
  · cases present with
    | none =>
      obtain ⟨operand, hoperand, -⟩ := Outcome.map_eq_ok_iff.mp h
      exact (Arithmetic.operand_eq_ok_iff.mp hoperand).1
    | some old =>
      obtain ⟨sum, hsum, -⟩ := Outcome.map_eq_ok_iff.mp h
      exact Arithmetic.isNumeric_of_apply hsum
  · cases present with
    | none =>
      obtain ⟨operand, hoperand, -⟩ := Outcome.bind_eq_ok_iff.mp h
      exact (Arithmetic.operand_eq_ok_iff.mp hoperand).1
    | some old =>
      obtain ⟨product, hproduct, -⟩ := Outcome.map_eq_ok_iff.mp h
      exact Arithmetic.isNumeric_of_apply hproduct

/-! ### Updates that fail -/

open Outcome (Raceless)

theorem Arithmetic.raceless_decimals (op : Arithmetic) (a b : Value) : Raceless (op.decimals a b) := by
  unfold decimals
  split
  · exact .ok _
  · exact .error rfl

theorem Arithmetic.raceless_operand (value : Value) : Raceless (operand value) := by
  unfold operand
  split
  · exact .ok _
  · exact .error rfl

theorem Arithmetic.raceless_apply (op : Arithmetic) (a b : Value) : Raceless (op.apply a b) := by
  refine (raceless_operand a).bind fun a => (raceless_operand b).bind fun b => ?_
  split
  · dsimp only
    split
    · exact .ok _
    · exact op.raceless_decimals _ _
  · exact op.raceless_decimals _ _
  · exact op.raceless_decimals _ _
  · exact .ok _

theorem Update.raceless_onArray (operator : String) (change : List Value → List Value) (current : Option Value) :
    Raceless (onArray operator change current) := by
  unfold onArray
  split
  · exact .ok _
  · exact .ok _
  · exact .error rfl

theorem Update.raceless_apply (update : Update) (current : Option Value) : Raceless (update.apply current) := by
  rw [Update.apply]
  generalize current.filter (fun value => !value.isNull) = current
  unfold applyTo
  split
  case h_3 => exact (Arithmetic.raceless_operand _).map some
  case h_4 => exact (Arithmetic.raceless_apply _ _ _).map some
  case h_5 => exact (Arithmetic.raceless_operand _).bind fun factor => (Arithmetic.raceless_apply _ _ _).map some
  case h_6 => exact (Arithmetic.raceless_apply _ _ _).map some
  all_goals first | exact .ok _ | exact raceless_onArray _ _ _

namespace FindOneQuery

variable {query : FindOneQuery}

theorem distinct_seedFields (query : FindOneQuery) : query.seedFields.Distinct :=
  OrderedMap.distinct_extend (OrderedMap.distinct_ofList _) query.setOnInsert

/-- A field of the seed: what is set on insert comes before what the filters fix. -/
theorem get?_seedFields (hdistinct : query.setOnInsert.Distinct) (key : String) :
    OrderedMap.get? query.seedFields key = (OrderedMap.get? query.setOnInsert key).or
      (OrderedMap.get? (OrderedMap.ofList (Predicate.equalitiesOfList query.filters)) key) :=
  OrderedMap.get?_extend hdistinct key

end FindOneQuery

end ObjectStore
