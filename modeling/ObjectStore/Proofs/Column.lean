import ObjectStore.Column
import ObjectStore.Proofs.Arithmetic

/-!
# Columns of updated fields

What an update leaves in a field has the storage type that is inferred for the update, except among numbers: there the field may keep a kind of its own, and integers that overflow leave a decimal.
-/

namespace ObjectStore

/-! ### Types of results -/

theorem FieldType.isNumeric_congr {a b : Value} (h : ofValue? a = ofValue? b) : a.isNumeric = b.isNumeric := by
  cases a <;> cases b <;> first | rfl | cases h

theorem FieldType.isNumeric_of_ofValue? {value : Value} (hvalue : value.isNumeric = true) :
    ofValue? value = some .integer ∨ ofValue? value = some .number ∨ ofValue? value = some .decimal := by
  cases value <;> simp_all [Value.isNumeric, ofValue?]

/-- Values that are ordered are of one storage type, or both are numbers. -/
theorem Value.ofValue?_eq_of_compare? {a b : Value} {order : Ordering} (h : a.compare? b = some order) :
    FieldType.ofValue? a = FieldType.ofValue? b ∨ (a.isNumeric = true ∧ b.isNumeric = true) := by
  cases a <;> cases b <;> first
    | exact Or.inl rfl
    | exact Or.inr ⟨rfl, rfl⟩
    | simp [compare?, isNumeric] at h

namespace Arithmetic

/-- Whether two values are integers with an exact result that is no integer of 64 bits. -/
inductive Overflows (op : Arithmetic) : Value → Value → Prop where
  | integers {m n : Int64} (h : ∀ word : Int64, word.toInt ≠ op.onInt m.toInt n.toInt) : Overflows op (.integer m) (.integer n)

variable {op : Arithmetic} {a b value : Value}

theorem ofValue?_of_decimals (h : op.decimals a b = .ok value) : FieldType.ofValue? value = some .decimal := by
  rw [decimals] at h
  split at h
  · obtain rfl := Except.ok.inj h
    rfl
  · cases h

theorem isNumeric_left_of_apply (h : op.apply a b = .ok value) : a.isNumeric = true := by
  obtain ⟨first, hfirst, -⟩ := Outcome.bind_eq_ok_iff.mp h
  exact (operand_eq_ok_iff.mp hfirst).1

/-- Arithmetic keeps the type of one of its operands, unless integers overflow. -/
theorem ofValue?_of_apply (h : op.apply a b = .ok value) :
    (op.Overflows a b ∧ FieldType.ofValue? value = some .decimal) ∨
      (¬ op.Overflows a b ∧ (FieldType.ofValue? value = FieldType.ofValue? a ∨ FieldType.ofValue? value = FieldType.ofValue? b)) := by
  have hleft := isNumeric_left_of_apply h
  have hright := isNumeric_of_apply h
  cases a with
  | integer m =>
    cases b with
    | integer n =>
      rw [apply_integers] at h
      obtain rfl := Except.ok.inj h
      by_cases hword : ∃ word : Int64, word.toInt = op.onInt m.toInt n.toInt
      · obtain ⟨word, hword⟩ := hword
        refine Or.inr ⟨?_, Or.inl ?_⟩
        · rintro ⟨hoverflow⟩
          exact hoverflow word hword
        · rw [← hword, Value.ofInt_toInt]
          rfl
      · have hoverflow : ∀ word : Int64, word.toInt ≠ op.onInt m.toInt n.toInt := not_exists.mp hword
        refine Or.inl ⟨.integers hoverflow, ?_⟩
        rw [Value.ofInt_of_overflow hoverflow]
        rfl
    | number y =>
      obtain rfl := Except.ok.inj h
      exact Or.inr ⟨nofun, Or.inr rfl⟩
    | decimal e => exact Or.inr ⟨nofun, Or.inr (ofValue?_of_decimals (a := .integer m) (b := .decimal e) h)⟩
    | _ => cases hright
  | number x =>
    cases b with
    | integer n | number y =>
      obtain rfl := Except.ok.inj h
      exact Or.inr ⟨nofun, Or.inl rfl⟩
    | decimal e => exact Or.inr ⟨nofun, Or.inr (ofValue?_of_decimals h)⟩
    | _ => cases hright
  | decimal d =>
    have hdecimals : op.decimals (.decimal d) b = .ok value := by
      cases b with
      | integer n | number y | decimal e => exact h
      | _ => cases hright
    exact Or.inr ⟨nofun, Or.inl (ofValue?_of_decimals hdecimals)⟩
  | _ => cases hleft

theorem ofValue?_of_apply_zeroLike (h : multiply.apply (Update.zeroLike b) b = .ok value) :
    FieldType.ofValue? value = FieldType.ofValue? b := by
  have hzero : FieldType.ofValue? (Update.zeroLike b) = FieldType.ofValue? b := by
    have hnumeric := isNumeric_of_apply h
    cases b <;> first | rfl | cases hnumeric
  rcases ofValue?_of_apply h with ⟨hoverflow, -⟩ | ⟨-, hleft | hright⟩
  · cases b with
    | integer n =>
      obtain ⟨hword⟩ := hoverflow
      exact absurd (Int.zero_mul n.toInt).symm (hword 0)
    | _ => cases hoverflow
  · exact hleft.trans hzero
  · exact hright

theorem isNumeric_of_apply_eq (h : op.apply a b = .ok value) : value.isNumeric = true := by
  rcases ofValue?_of_apply h with ⟨-, hdecimal⟩ | ⟨-, hleft | hright⟩
  · exact FieldType.isNumeric_congr (b := .decimal (.ofInt 0)) hdecimal
  · exact (FieldType.isNumeric_congr hleft).trans (isNumeric_left_of_apply h)
  · exact (FieldType.isNumeric_congr hright).trans (isNumeric_of_apply h)

end Arithmetic

/-! ### Values after an update -/

namespace Update

theorem keepIf_eq_or (wanted : Ordering → Bool) (current value : Value) :
    keepIf wanted current value = current ∨ keepIf wanted current value = value := by
  unfold keepIf
  split
  · split
    · exact Or.inl rfl
    · exact Or.inr rfl
  · exact Or.inr rfl

theorem ofValue?_keepIf (wanted : Ordering → Bool) (current value : Value) :
    FieldType.ofValue? (keepIf wanted current value) = FieldType.ofValue? value ∨
      ((keepIf wanted current value).isNumeric = true ∧ value.isNumeric = true) := by
  unfold keepIf
  split
  · next order horder =>
    split
    · exact Value.ofValue?_eq_of_compare? horder
    · exact Or.inl rfl
  · exact Or.inl rfl

theorem ofValue?_of_onArray {operator : String} {change : List Value → List Value} {current : Option Value} {value : Value}
    (h : onArray operator change current = .ok (some value)) : FieldType.ofValue? value = some .json := by
  rw [onArray.eq_def] at h
  split at h
  · cases h
  · obtain rfl := Option.some.inj (Except.ok.inj h)
    rfl
  · cases h

/-- Whether an update takes integers out of their range. -/
inductive Overflows : Update → Option Value → Prop where
  | increment {old delta : Value} (h : Arithmetic.add.Overflows old delta) : Overflows (.increment delta) (some old)
  | multiply {old factor : Value} (h : Arithmetic.multiply.Overflows old factor) : Overflows (.multiply factor) (some old)

/-- What is left in a field that an update changes: a value of the type that is inferred for the update. Among numbers it may have the type of what the field held, or be the decimal of an integer that overflows. -/
inductive Leaves (update : Update) (needed : FieldType) (old : Option Value) (value : Value) : Prop where
  | inferred (hfits : ¬ update.Overflows old) (h : FieldType.ofValue? value = some needed)
  | numbers (operand : Value) (hneeded : FieldType.ofValue? operand = some needed) (hoperand : operand.isNumeric = true)
      (hvalue : value.isNumeric = true)
      (h : (update.Overflows old ∧ FieldType.ofValue? value = some .decimal) ∨
        (¬ update.Overflows old ∧ ∃ first ∈ old, FieldType.ofValue? value = FieldType.ofValue? first))

variable {update : Update} {old : Option Value} {value : Value} {needed : FieldType}

theorem Leaves.of_arithmetic {op : Arithmetic} {first operand : Value}
    (hoverflows : update.Overflows (some first) ↔ op.Overflows first operand) (h : op.apply first operand = .ok value)
    (hneeded : FieldType.ofValue? operand = some needed) : update.Leaves needed (some first) value := by
  have hoperand := Arithmetic.isNumeric_of_apply h
  have hvalue := Arithmetic.isNumeric_of_apply_eq h
  have htypes := Arithmetic.ofValue?_of_apply h
  rw [← hoverflows] at htypes
  rcases htypes with hoverflow | ⟨hfits, hfirst | hsame⟩
  · exact .numbers operand hneeded hoperand hvalue (Or.inl hoverflow)
  · exact .numbers operand hneeded hoperand hvalue (Or.inr ⟨hfits, first, rfl, hfirst⟩)
  · exact .inferred hfits (hsame.trans hneeded)

theorem Leaves.of_keepIf {first operand : Value} {wanted : Ordering → Bool} (hfits : ¬ update.Overflows (some first))
    (hneeded : FieldType.ofValue? operand = some needed) : update.Leaves needed (some first) (keepIf wanted first operand) := by
  rcases ofValue?_keepIf wanted first operand with hsame | ⟨hvalue, hoperand⟩
  · exact .inferred hfits (hsame.trans hneeded)
  rcases keepIf_eq_or wanted first operand with hkept | hleft
  · exact .numbers operand hneeded hoperand hvalue (Or.inr ⟨hfits, first, rfl, congrArg FieldType.ofValue? hkept⟩)
  · exact .inferred hfits ((congrArg FieldType.ofValue? hleft).trans hneeded)

theorem Leaves.of_none (h : update.Leaves needed none value) : FieldType.ofValue? value = some needed := by
  cases h with
  | inferred _ hinferred => exact hinferred
  | numbers operand _ _ _ hnumbers =>
    rcases hnumbers with ⟨hoverflow, -⟩ | ⟨-, first, hfirst, -⟩
    · cases hoverflow
    · cases hfirst

theorem leaves_of_applyTo (h : update.applyTo old = .ok (some value)) (hneeded : FieldType.ofUpdate? update = some needed) :
    update.Leaves needed old value := by
  cases update with
  | set operand =>
    obtain rfl := Option.some.inj (Except.ok.inj h)
    exact .inferred nofun hneeded
  | increment delta =>
    cases old with
    | none =>
      obtain ⟨operand, hoperand, same⟩ := Outcome.map_eq_ok_iff.mp h
      obtain rfl := Option.some.inj same
      obtain ⟨-, rfl⟩ := Arithmetic.operand_eq_ok_iff.mp hoperand
      exact .inferred nofun hneeded
    | some first =>
      obtain ⟨result, hresult, same⟩ := Outcome.map_eq_ok_iff.mp h
      obtain rfl := Option.some.inj same
      exact .of_arithmetic ⟨fun (.increment hoverflow) => hoverflow, .increment⟩ hresult hneeded
  | multiply factor =>
    cases old with
    | none =>
      obtain ⟨operand, hoperand, hrest⟩ := Outcome.bind_eq_ok_iff.mp h
      obtain ⟨result, hresult, same⟩ := Outcome.map_eq_ok_iff.mp hrest
      obtain rfl := Option.some.inj same
      obtain ⟨-, rfl⟩ := Arithmetic.operand_eq_ok_iff.mp hoperand
      exact .inferred nofun ((Arithmetic.ofValue?_of_apply_zeroLike hresult).trans hneeded)
    | some first =>
      obtain ⟨result, hresult, same⟩ := Outcome.map_eq_ok_iff.mp h
      obtain rfl := Option.some.inj same
      exact .of_arithmetic ⟨fun (.multiply hoverflow) => hoverflow, .multiply⟩ hresult hneeded
  | max operand | min operand =>
    cases old with
    | none =>
      obtain rfl := Option.some.inj (Except.ok.inj h)
      exact .inferred nofun hneeded
    | some first =>
      obtain rfl := Option.some.inj (Except.ok.inj h)
      exact .of_keepIf nofun hneeded
  | push element =>
    obtain rfl := Option.some.inj hneeded
    cases old with
    | none =>
      obtain rfl := Option.some.inj (Except.ok.inj h)
      exact .inferred nofun rfl
    | some first => exact .inferred nofun (ofValue?_of_onArray h)
  | removeAll elements =>
    obtain rfl := Option.some.inj hneeded
    exact .inferred nofun (ofValue?_of_onArray h)
  | unset | popFirst | popLast => cases hneeded

end Update

/-- A field that an update leaves has the type of its operand, or both are numbers. -/
theorem FieldType.ofValue?_of_apply {update : Update} {current : Option Value} {value : Value}
    (h : update.apply current = .ok (some value)) {type : FieldType} (htype : ofUpdate? update = some type) :
    ofValue? value = some type ∨ (value.isNumeric = true ∧ ∃ operand, ofValue? operand = some type ∧ operand.isNumeric = true) := by
  cases Update.leaves_of_applyTo h htype with
  | inferred _ hsame => exact Or.inl hsame
  | numbers operand hneeded hoperand hvalue _ => exact Or.inr ⟨hvalue, operand, hneeded, hoperand⟩

/-! ### Inferred columns -/

namespace Column

variable {fields : Fields} {updates : Updates} {column : Column}

theorem mem_ofFields : column ∈ ofFields fields ↔ ∃ value, (column.name, value) ∈ fields ∧ FieldType.ofValue? value = some column.type := by
  simp only [ofFields, List.mem_filterMap, Option.map_eq_some_iff]
  constructor
  · rintro ⟨⟨name, value⟩, hentry, type, htype, rfl⟩
    exact ⟨value, hentry, htype⟩
  · rintro ⟨value, hentry, htype⟩
    exact ⟨(column.name, value), hentry, column.type, htype, rfl⟩

theorem mem_ofUpdates :
    column ∈ ofUpdates updates ↔ ∃ update, (column.name, update) ∈ updates ∧ FieldType.ofUpdate? update = some column.type := by
  simp only [ofUpdates, List.mem_filterMap, Option.map_eq_some_iff]
  constructor
  · rintro ⟨⟨name, update⟩, hentry, type, htype, rfl⟩
    exact ⟨update, hentry, htype⟩
  · rintro ⟨update, hentry, htype⟩
    exact ⟨(column.name, update), hentry, column.type, htype, rfl⟩

/-- Columns are inferred in the order of the names, and at most one for each. -/
theorem names_filterMap_sublist {α : Type} (type? : α → Option FieldType) (map : OrderedMap α) :
    ((map.filterMap fun entry => (type? entry.2).map fun type => (⟨entry.1, type⟩ : Column)).map Column.name).Sublist
      (OrderedMap.keys map) := by
  induction map with
  | nil => exact List.Sublist.slnil
  | cons entry rest ih =>
    rw [List.filterMap_cons]
    cases type? entry.2 with
    | none => exact ih.cons _
    | some type => exact ih.cons_cons _

theorem nodup_ofFields (h : fields.Distinct) : ((ofFields fields).map Column.name).Nodup :=
  h.sublist (names_filterMap_sublist FieldType.ofValue? fields)

theorem nodup_ofUpdates (h : updates.Distinct) : ((ofUpdates updates).map Column.name).Nodup :=
  h.sublist (names_filterMap_sublist FieldType.ofUpdate? updates)

end Column

end ObjectStore
