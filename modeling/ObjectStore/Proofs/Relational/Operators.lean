import ObjectStore.Proofs.Relational.Listing

/-!
# Operators and the columns that they run on

The expression of an update is built without a look at the type of its column. What types it is the check of the table before: an update lists the column that it needs, and only a table that keeps it gets the statement. So an operator on arrays runs on columns for JSON, arithmetic runs on columns for numbers, and the update can be applied to whatever such a column holds, with two exceptions. Popping lists no column. It is sent to a column of any type, although a field of another type than JSON refuses it. And a column for JSON holds objects beside arrays, which no operator on arrays can be applied to; the type of the column does not tell them apart.
-/

namespace ObjectStore

/-! ### Updates that can be applied -/

namespace Update

def isOnArray : Update → Bool
  | push _ | removeAll _ | popFirst | popLast => true
  | _ => false

def isPop : Update → Bool
  | popFirst | popLast => true
  | _ => false

def isArithmetic : Update → Bool
  | increment _ | multiply _ => true
  | _ => false

/-- The operand of arithmetic. -/
inductive Computes : Update → Value → Prop where
  | increment (operand : Value) : Computes (.increment operand) operand
  | multiply (operand : Value) : Computes (.multiply operand) operand

variable {update : Update}

theorem exists_computes (h : update.isArithmetic = true) : ∃ operand, update.Computes operand := by
  cases update with
  | increment operand => exact ⟨operand, .increment operand⟩
  | multiply operand => exact ⟨operand, .multiply operand⟩
  | _ => cases h

theorem isNumeric_of_requireNumber {operand : Value} (h : update.requireNumber operand = .ok ()) : operand.isNumeric = true := by
  rw [requireNumber] at h
  split at h
  · assumption
  · cases h

theorem exists_multiply_zeroLike {factor : Value} (hfactor : factor.isNumeric = true) :
    ∃ product, Arithmetic.multiply.apply (zeroLike factor) factor = .ok product := by
  cases factor with
  | integer n => exact ⟨_, Arithmetic.multiply.apply_integers 0 n⟩
  | number x => exact ⟨_, rfl⟩
  | decimal d => exact ⟨_, rfl⟩
  | _ => cases hfactor

theorem exists_apply_none (hnumbers : ∀ operand, update.Computes operand → operand.isNumeric = true) :
    ∃ result, update.apply none = .ok result := by
  cases update with
  | increment operand =>
    have hoperand := hnumbers operand (.increment operand)
    exact ⟨some operand, Outcome.map_eq_ok_iff.mpr ⟨operand, Arithmetic.operand_eq_ok_iff.mpr ⟨hoperand, rfl⟩, rfl⟩⟩
  | multiply operand =>
    have hoperand := hnumbers operand (.multiply operand)
    obtain ⟨product, hproduct⟩ := exists_multiply_zeroLike hoperand
    refine ⟨some product, Outcome.bind_eq_ok_iff.mpr ⟨operand, ?_, Outcome.map_eq_ok_iff.mpr ⟨product, hproduct, rfl⟩⟩⟩
    exact Arithmetic.operand_eq_ok_iff.mpr ⟨hoperand, rfl⟩
  | _ => exact ⟨_, rfl⟩

theorem apply_some {value : Value} (hnull : value.isNull = false) : update.apply (some value) = update.applyTo (some value) := by
  rw [apply, Option.filter_some, hnull]
  rfl

theorem apply_pop_eq_error (hpop : update.isPop = true) {value : Value} (hnull : value.isNull = false)
    (harray : ∀ items, value ≠ .array items) : update.apply (some value) = .error (notAnArray "pop" value) := by
  rw [apply_some hnull]
  cases value with
  | array items => exact absurd rfl (harray items)
  | _ => cases update <;> first | rfl | cases hpop

end Update

namespace Relational

/-! ### Columns that accept updates -/

namespace SqlType

def isNumeric : SqlType → Bool
  | bigint | doublePrecision | numeric => true
  | _ => false

/-- The column type that an update needs. -/
def ofUpdate? (update : Update) : Option SqlType := (FieldType.ofUpdate? update).map ofFieldType

/-- Whether a column of a type can hold a value, or nothing. Of a column for JSON only the arrays are meant: it can hold objects too, but operators on arrays refuse them whatever the column. -/
def CanHold (type : SqlType) : Option Value → Prop
  | none => True
  | some value => ofValue? value = some type ∧ (type = .jsonb → ∃ items, value = .array items)

/-- Whether an update can be applied to whatever a column of a type holds, objects in a column for JSON apart. -/
def Accepts (type : SqlType) (update : Update) : Prop :=
  ∀ current, type.CanHold current → ∃ result, update.apply current = .ok result

variable {type : SqlType} {update : Update} {current operand : Value}

theorem isNull_of_ofValue? (h : ofValue? current = some type) : current.isNull = false := by
  cases current <;> first | rfl | cases h

theorem eq_jsonb_of_holds (h : type.holds .jsonb = true) : type = .jsonb := by
  cases type <;> first | rfl | cases h

theorem isNumeric_of_holds (hoperand : operand.isNumeric = true)
    (hholds : ∀ written, ofValue? operand = some written → type.holds written = true) : type.isNumeric = true := by
  have hkinds : type.holds .bigint = true ∨ type.holds .doublePrecision = true ∨ type.holds .numeric = true := by
    cases operand with
    | integer n => exact Or.inl (hholds _ rfl)
    | number x => exact Or.inr (Or.inl (hholds _ rfl))
    | decimal d => exact Or.inr (Or.inr (hholds _ rfl))
    | _ => cases hoperand
  cases type <;> first | rfl | simp [holds] at hkinds

/-- A number is combined with whatever number its column holds. Only a double fails among decimals, and no column keeps both. -/
theorem exists_apply (op : Arithmetic) (hcurrent : ofValue? current = some type) (hoperand : operand.isNumeric = true)
    (hholds : ∀ written, ofValue? operand = some written → type.holds written = true) :
    ∃ result, op.apply current operand = .ok result := by
  have hnumeric := isNumeric_of_holds hoperand hholds
  cases operand with
  | integer n =>
    cases current with
    | integer m => exact ⟨_, op.apply_integers m n⟩
    | number x => exact ⟨_, rfl⟩
    | decimal d => exact ⟨_, rfl⟩
    | _ => cases hcurrent <;> cases hnumeric
  | number x =>
    cases current with
    | number y => exact ⟨_, rfl⟩
    | _ => cases hcurrent <;> cases hholds _ rfl
  | decimal d =>
    cases current with
    | decimal e => exact ⟨_, rfl⟩
    | _ => cases hcurrent <;> cases hholds _ rfl
  | _ => cases hoperand

/-- A column that keeps what an update needs accepts the update. Popping needs nothing, so there the column has to be for JSON. -/
theorem accepts (hneeds : ∀ needed, ofUpdate? update = some needed → type.holds needed = true)
    (hnumbers : ∀ operand, update.Computes operand → operand.isNumeric = true) (hpop : update.isPop = true → type = .jsonb) :
    type.Accepts update := by
  rintro (_ | value) hcurrent
  · exact Update.exists_apply_none hnumbers
  obtain ⟨hvalue, harray⟩ := hcurrent
  rw [Update.apply_some (isNull_of_ofValue? hvalue)]
  cases update with
  | set operand | unset | max operand | min operand => exact ⟨_, rfl⟩
  | increment operand =>
    obtain ⟨sum, hsum⟩ := exists_apply .add hvalue (hnumbers operand (.increment operand)) hneeds
    exact ⟨some sum, Outcome.map_eq_ok_iff.mpr ⟨sum, hsum, rfl⟩⟩
  | multiply operand =>
    obtain ⟨product, hproduct⟩ := exists_apply .multiply hvalue (hnumbers operand (.multiply operand)) hneeds
    exact ⟨some product, Outcome.map_eq_ok_iff.mpr ⟨product, hproduct, rfl⟩⟩
  | push element | removeAll elements =>
    obtain ⟨items, rfl⟩ := harray (eq_jsonb_of_holds (hneeds _ rfl))
    exact ⟨_, rfl⟩
  | popFirst | popLast =>
    obtain ⟨items, rfl⟩ := harray (hpop rfl)
    exact ⟨_, rfl⟩

end SqlType

/-! ### Columns of assigned updates -/

/-- Whether an update fits the column of its field: an operator on arrays has a column for JSON and arithmetic one for numbers, and the column accepts the update. -/
structure Table.Fits (table : Table) (name : String) (update : Update) : Prop where
  arrays : update.isOnArray = true → table.column? name = some .jsonb
  numbers : update.isArithmetic = true → ∃ type, table.column? name = some type ∧ type.isNumeric = true
  accepted : ∃ type, table.column? name = some type ∧ type.Accepts update

/-- Whether an update pops from a column of another type than JSON, so that it can be applied to nothing that the column holds. -/
structure Table.PopsOther (table : Table) (name : String) (update : Update) : Prop where
  pops : update.isPop = true
  refused : ∃ type, table.column? name = some type ∧ type ≠ .jsonb ∧
    ∀ value, SqlType.ofValue? value = some type → update.apply (some value) = .error (Update.notAnArray "pop" value)

theorem Assignment.isNumeric_of_ofUpdate {update : Update} {assignment : Assignment} (h : ofUpdate update = .ok assignment)
    {operand : Value} (hcomputes : update.Computes operand) : operand.isNumeric = true := by
  cases hcomputes with
  | increment | multiply =>
    obtain ⟨_, hchecked, -⟩ := Outcome.map_eq_ok_iff.mp h
    exact Update.isNumeric_of_requireNumber hchecked

section Fits

variable {table : Table} {name : String} {type : SqlType} (htype : table.column? name = some type) {update : Update}

include htype

theorem Table.fits (hneeds : ∀ needed, SqlType.ofUpdate? update = some needed → type.holds needed = true)
    (hnumbers : ∀ operand, update.Computes operand → operand.isNumeric = true) (hpop : update.isPop = true → type = .jsonb) :
    table.Fits name update := by
  refine ⟨?arrays, ?numbers, type, htype, SqlType.accepts hneeds hnumbers hpop⟩
  case arrays =>
    intro harray
    cases update with
    | push element | removeAll elements => rw [htype, SqlType.eq_jsonb_of_holds (hneeds _ rfl)]
    | popFirst | popLast => rw [htype, hpop rfl]
    | _ => cases harray
  case numbers =>
    intro harithmetic
    obtain ⟨operand, hcomputes⟩ := Update.exists_computes harithmetic
    have hnumeric := hnumbers operand hcomputes
    cases hcomputes with
    | increment | multiply => exact ⟨type, htype, SqlType.isNumeric_of_holds hnumeric hneeds⟩

theorem Table.popsOther (hpop : update.isPop = true) (hother : type ≠ .jsonb) : table.PopsOther name update := by
  refine ⟨hpop, type, htype, hother, fun value hvalue => ?_⟩
  apply Update.apply_pop_eq_error hpop (SqlType.isNull_of_ofValue? hvalue)
  rintro items rfl
  exact hother (Option.some.inj hvalue).symm

/-- An update that is assigned to a column that keeps it fits, or it pops from a column of another type. -/
theorem Table.fits_or_popsOther {assignment : Assignment} (hassignment : Assignment.ofUpdate update = .ok assignment)
    (hkeeps : ∀ type, FieldType.ofUpdate? update = some type → table.Keeps ⟨name, type⟩) :
    table.Fits name update ∨ table.PopsOther name update := by
  -- What an update needs was checked, and only popping needs nothing.
  by_cases hslips : update.isPop = true ∧ type ≠ .jsonb
  · exact Or.inr (Table.popsOther htype hslips.1 hslips.2)
  refine Or.inl (Table.fits htype ?_ (fun _ => Assignment.isNumeric_of_ofUpdate hassignment) fun hpop => ?_)
  · intro needed hneeded
    obtain ⟨field, hfield, rfl⟩ := Option.map_eq_some_iff.mp hneeded
    obtain ⟨existing, hexisting, hholds⟩ := hkeeps field hfield
    obtain rfl := Option.some.inj (htype.symm.trans hexisting)
    exact hholds
  · exact of_not_not fun hother => hslips ⟨hpop, hother⟩

end Fits

theorem hasColumn_of_mem_keys {table : Table} {updates : Updates} {assignments : List (String × Assignment)}
    (h : Assignment.ofUpdates table updates = .ok assignments) : ∀ name ∈ OrderedMap.keys assignments, table.hasColumn name = true := by
  induction updates generalizing assignments with
  | nil =>
    obtain rfl := Except.ok.inj h
    exact fun _ hnone => absurd hnone List.not_mem_nil
  | cons entry rest ih =>
    obtain ⟨key, update⟩ := entry
    obtain ⟨assignment?, others, hfirst, hothers, rfl⟩ := Assignment.ofUpdates_cons_eq_ok_iff.mp h
    rcases Assignment.ofUpdate?_eq_ok_iff.mp hfirst with ⟨hcolumn, assignment, -, rfl⟩ | ⟨-, -, rfl⟩
    · exact List.forall_mem_cons.mpr ⟨hcolumn, ih hothers⟩
    · exact ih hothers

/-! ### Updates that are sent -/

/-- Whether a statement updates a table that the server shows, and something holds of every update that it assigns. -/
def UpdateAssigns (expected : Table → String → Update → Prop) (query : FindOneQuery) (past : Trace) (statement : Statement) : Prop :=
  ∃ table now assignments, Trace.Shows past table ∧ Assignment.ofUpdates table query.update = .ok assignments ∧
    statement = Statement.assigning table query (assignments ++ [(FieldName.physicalUpdatedAt, .set now)]) ∧
    ∀ name update, (name, update) ∈ query.update → name ∈ OrderedMap.keys assignments → expected table name update

theorem UpdateKept.assigns {query : FindOneQuery} {past : Trace} {statement : Statement} (h : UpdateKept query past statement) :
    UpdateAssigns (fun table name update => table.Fits name update ∨ table.PopsOther name update) query past statement := by
  obtain ⟨table, now, hshown, hstatement, hkeeps⟩ := h
  obtain ⟨assignments, hassignments, rfl⟩ := Statement.update_eq_ok_iff.mp hstatement
  refine ⟨table, now, assignments, hshown, hassignments, rfl, fun name update hentry hname => ?_⟩
  have hcolumn := hasColumn_of_mem_keys hassignments name hname
  obtain ⟨type, htype⟩ : ∃ type, table.column? name = some type := Option.isSome_iff_exists.mp hcolumn
  rcases assigned_or_absent hassignments (name, update) hentry with ⟨assignment, hassignment, -⟩ | ⟨hnone, -⟩
  · refine Table.fits_or_popsOther htype hassignment fun needed hneeded => ?_
    exact hkeeps ⟨name, needed⟩ (Column.mem_ofUpdates.mpr ⟨update, hentry, hneeded⟩)
  · rw [hcolumn] at hnone
    cases hnone

namespace Dialogue

/-- Every operator that an update sends fits the column that it runs on, but for popping from a column that is not for JSON. Objects in a column for JSON are the other exception: the operators on arrays are sent for them too, and accepted is said of the arrays only. -/
theorem operators_fit (inTransaction : Bool) (patience : Nat) (past : Trace) (query : FindOneQuery) :
    Sends (UpdateAssigns (fun table name update => table.Fits name update ∨ table.PopsOther name update) query.toPhysical) past
      ((session inTransaction patience).update query) :=
  Obeys.mono ((yields_update query).expecting fun _ _ h => h.assigns) fun _ _ _ _ => trivial

theorem Obeys.query_of_firstObject {allowed : Trace → Request → Prop} {wanted : Trace → Outcome (Option Object) → Prop} {past : Trace}
    {inTransaction : Bool} {patience : Nat} {className : String} {table : Table} {statement : Statement}
    (h : Obeys allowed wanted past ((session inTransaction patience).firstObject className table statement))
    (htext : '\x00' ∉ statement.text.toList) : allowed past (.query statement) := by
  have hsendable : ¬statement.text.toList.contains '\x00' = true := by simpa using htext
  simp only [Session.firstObject, session, Connection.rows, Connection.sending, if_neg hsendable] at h
  exact h.isAllowed

/-- A query that pops from a field that is no array. -/
def popping : FindOneQuery where
  className := "T"
  update := [("n", .popLast)]

theorem popping_not_fit : ¬Sends (UpdateAssigns Table.Fits popping.toPhysical) [] ((session false 1).update popping) := by
  intro h
  let table : Table := { name := "T", columns := [("_id", .text), ("n", .bigint)] }
  let now : Instant := { seconds := 0, nanos := 0 }
  -- Popping lists no column, so the table is taken as it was found.
  let statement := Statement.assigning table popping.toPhysical [("n", .dropLast), (FieldName.physicalUpdatedAt, .set (.timestamp now))]
  have hsent : Obeys _ _ [_, _] ((session false 1).firstObject "T" table statement) :=
    (h.answered (.ok [("T", "_id", "text"), ("T", "n", "bigint")])).answered now
  obtain ⟨other, _, assignments, hshown, hassignments, -, hfits⟩ := hsent.query_of_firstObject (not_mem_text (by decide))
  obtain rfl : table = other := Option.some.inj hshown.ofCatalog?_eq
  obtain rfl : [("n", Assignment.dropLast)] = assignments := Except.ok.inj hassignments
  have hcolumn := (hfits "n" .popLast List.mem_cons_self List.mem_cons_self).arrays rfl
  exact absurd hcolumn (by decide)

end Dialogue

end Relational

end ObjectStore
