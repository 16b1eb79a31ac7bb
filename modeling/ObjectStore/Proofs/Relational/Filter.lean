import ObjectStore.Proofs.Relational.Reading
import ObjectStore.Proofs.Value.Order

/-!
# Conditions select what predicates hold of

Two values of one plain type are compared by the server as they are by the library, so only null is left to look at. There the two sides differ on purpose: the library has two truth values and SQL has three. The third value comes of a comparison with null only, a row is selected by the first value alone, and negation asks whether its argument is that one; so it is enough to follow, through every predicate, whether its condition is true.

The main statement is about the text of the condition and the values bound to it.
-/

namespace ObjectStore

namespace Relational

/-! ### Typing -/

/-- Whether the values of a type are compared by the server as they are by the library. -/
def SqlType.isPlain : SqlType → Bool
  | boolean | text | bigint | timestamptz | date | time | bytea => true
  | doublePrecision | numeric | jsonb => false

/-- Whether a value may stand in a column of a type. -/
def SqlType.admits (type : SqlType) (value : Value) : Bool := value.isNull || SqlType.ofValue? value == some type

namespace Table

/-- All columns have plain types. -/
def Plain (table : Table) : Prop := ∀ column ∈ table.columns, column.2.isPlain = true

/-- Whether a value may be compared with a key: anything may be if there is no such column. -/
def admits (table : Table) (key : String) (value : Value) : Bool :=
  match table.column? key with
  | some type => type.admits value
  | none => true

def comparable (table : Table) : Operand → Operand → Bool
  | .literal _, .literal _ => true
  | .literal value, .key key | .key key, .literal value => table.admits key value
  | .key a, .key b =>
    match table.column? a, table.column? b with
    | some first, some second => first == second
    | _, _ => true

/-- Whether the members of a list may be compared with the key that is looked for in it. -/
def listable (table : Table) : Operand → Operand → Bool
  | .key key, .literal (.array values) => values.all (table.admits key)
  | _, _ => true

/-- Whether a key has texts, or no column at all. -/
def isText (table : Table) (key : String) : Bool :=
  match table.column? key with
  | some type => type == .text
  | none => true

mutual

/-- Whether a predicate compares like with like. -/
def types (table : Table) : Predicate → Bool
  | .not inner => types table inner
  | .compare _ lhs rhs => table.comparable lhs rhs
  | .elementOf element collection | .notElementOf element collection => table.listable element collection
  | .between value low high | .notBetween value low high => table.comparable low value && table.comparable value high
  | .pattern _ key _ => table.isText key
  | .all parts | .any parts => typesAll table parts
termination_by structural predicate => predicate

def typesAll (table : Table) : List Predicate → Bool
  | [] => true
  | part :: parts => types table part && typesAll table parts
termination_by structural parts => parts

end

end Table

/-- A row of a table: every column is null or holds a value of its type. -/
structure TableRow (table : Table) where
  cell : String → Value
  typed : ∀ name type, table.column? name = some type → type.admits (cell name) = true

namespace TableRow

variable {table : Table} (row : TableRow table)

/-- What the columns hold. -/
def cells : Cells := fun name => if table.hasColumn name then some (row.cell name) else none

/-- The columns that are not null. -/
def record : Fields :=
  table.columns.filterMap fun column => if (row.cell column.1).isNull then none else some (column.1, row.cell column.1)

/-- What a key stands for: the value of its column, or null without one. -/
def value (key : String) : Value := if table.hasColumn key then row.cell key else .null

end TableRow

/-! ### Values of plain types -/

/-- Two values are null or of one plain type. -/
def Comparable (a b : Value) : Prop :=
  a = .null ∨ b = .null ∨ ∃ type : SqlType, type.isPlain = true ∧ SqlType.ofValue? a = some type ∧ SqlType.ofValue? b = some type

theorem compare_map {α β : Type} [Ord α] [Ord β] (f : α → β) (hf : ∀ a b, Ord.compare (f a) (f b) = Ord.compare a b)
    (as bs : List α) : Ord.compare (as.map f) (bs.map f) = Ord.compare as bs := by
  induction as generalizing bs with
  | nil => cases bs <;> rfl
  | cons a as ih =>
    cases bs with
    | nil => rfl
    | cons b bs => rw [List.map_cons, List.map_cons, List.compare_cons_cons, List.compare_cons_cons, hf, ih]

theorem compareOfLessAndEq_congr {α β : Type} [LT α] [DecidableLT α] [DecidableEq α] [LT β] [DecidableLT β] [DecidableEq β]
    {a b : α} {c d : β} (hlt : a < b ↔ c < d) (heq : a = b ↔ c = d) : compareOfLessAndEq a b = compareOfLessAndEq c d := by
  simp only [compareOfLessAndEq, hlt, heq]

theorem compare_toNat (c d : Char) : Ord.compare c.toNat d.toNat = Ord.compare c d :=
  compareOfLessAndEq_congr Iff.rfl Char.toNat_inj

theorem compare_chars (as bs : List Char) : Ord.compare as bs = compareOfLessAndEq as bs := by
  induction as generalizing bs with
  | nil => cases bs <;> rfl
  | cons a as ih =>
    cases bs with
    | nil => rfl
    | cons b bs =>
      have hhead : Ord.compare a b = compareOfLessAndEq a b := rfl
      rw [List.compare_cons_cons, ih, hhead]
      simp only [compareOfLessAndEq, List.cons_lt_cons_iff, List.cons.injEq]
      by_cases hlt : a < b
      · simp [hlt]
      · by_cases heq : a = b <;> simp [hlt, heq]

theorem compare_text (a b : String) :
    Ord.compare (a.toList.map Char.toNat) (b.toList.map Char.toNat) = Ord.compare a b := by
  rw [compare_map Char.toNat compare_toNat, compare_chars]
  exact compareOfLessAndEq_congr String.lt_iff.symm String.toList_inj

theorem compare_bytes (a b : List UInt8) : Ord.compare (a.map UInt8.toNat) (b.map UInt8.toNat) = Ord.compare a b :=
  compare_map UInt8.toNat (fun _ _ => compareOfLessAndEq_congr Iff.rfl UInt8.toNat_inj) a b

theorem compare_flags (a b : Bool) : Ord.compare a.toNat b.toNat = Ord.compare a b := by
  cases a <;> cases b <;> rfl

theorem exists_order {order : Ordering} {loose : Bool} {same : Prop} (horder : order = .eq ↔ same) (hloose : loose = true ↔ same) :
    ∃ found, some order = some found ∧ some order = some found ∧ loose = (found == .eq) ∧ (found = .eq ↔ same) := by
  refine ⟨order, rfl, rfl, ?_, horder⟩
  rw [Bool.eq_iff_iff, hloose, beq_iff_eq, horder]

/-- Values of a plain type are ordered the same way on both sides, and loosely equal only when they are the same. -/
theorem order?_of_plain {a b : Value} {type : SqlType} (hplain : type.isPlain = true) (ha : SqlType.ofValue? a = some type)
    (hb : SqlType.ofValue? b = some type) :
    ∃ order, order? a b = some order ∧ a.compare? b = some order ∧ a.looselyEquals b = (order == .eq) ∧ (order = .eq ↔ a = b) := by
  cases a <;> cases b <;> simp [SqlType.ofValue?, FieldType.ofValue?, SqlType.ofFieldType] at ha hb <;> subst ha <;>
    simp [SqlType.isPlain] at hb hplain <;>
    simp only [order?, Value.compare?, Value.looselyEquals, Value.eqBy, Value.looseScalar, Value.isNumeric, Value.sameScalar,
      compare_text, compare_bytes, compare_flags]
  case boolean.boolean a b => exact exists_order (by simp) (by simp)
  case string.string a b => exact exists_order (by simp) (by simp)
  case integer.integer a b => exact exists_order (by simp [Int64.toInt_inj]) (by simp [Int64.toInt_inj])
  case timestamp.timestamp a b => exact exists_order (by simp [Instant.compare_eq_iff]) (by simp)
  case date.date a b => exact exists_order (by simp [Date.compare_eq_iff]) (by simp)
  case time.time a b => exact exists_order (by simp [TimeOfDay.compare_eq_iff]) (by simp)
  case binary.binary a b => exact exists_order (by simp) (by simp)

/-! ### Comparisons -/

theorem isNull_iff {value : Value} : value.isNull = true ↔ value = .null := by
  cases value <;> simp [Value.isNull]

theorem isNull_eq_false {value : Value} {type : SqlType} (h : SqlType.ofValue? value = some type) : value.isNull = false := by
  cases value <;> simp [Value.isNull, SqlType.ofValue?, FieldType.ofValue?] at h ⊢

theorem looselyEquals_null_iff {a b : Value} (h : a = .null ∨ b = .null) : a.looselyEquals b = true ↔ a = b := by
  rcases h with rfl | rfl
  · cases b <;> simp [Value.looselyEquals, Value.eqBy, Value.looseScalar, Value.isNumeric, Value.sameScalar]
  · cases a <;> simp [Value.looselyEquals, Value.eqBy, Value.looseScalar, Value.isNumeric, Value.sameScalar]

theorem looselyEquals_iff {a b : Value} (h : Comparable a b) : a.looselyEquals b = true ↔ a = b := by
  rcases h with ha | hb | ⟨type, hplain, ha, hb⟩
  · exact looselyEquals_null_iff (Or.inl ha)
  · exact looselyEquals_null_iff (Or.inr hb)
  · obtain ⟨order, -, -, hloose, hsame⟩ := order?_of_plain hplain ha hb
    rw [hloose, beq_iff_eq, hsame]

theorem alike_iff {a b : Value} (h : Comparable a b) : alike a b = true ↔ a = b := by
  rcases h with rfl | rfl | ⟨type, hplain, ha, hb⟩
  · simpa [alike, Value.isNull] using isNull_iff.trans eq_comm
  · simpa [alike, Value.isNull] using isNull_iff
  · obtain ⟨order, horder, -, -, hsame⟩ := order?_of_plain hplain ha hb
    simp [alike, isNull_eq_false ha, isNull_eq_false hb, horder, hsame]

theorem isTrue_compare_equal {a b : Value} (h : Comparable a b) :
    (Truth.compare .equal a b).isTrue = true ↔ a = b ∧ a ≠ .null := by
  rcases h with rfl | rfl | ⟨type, hplain, ha, hb⟩
  · simp [Truth.compare, Value.isNull, Truth.isTrue]
  · simp only [Truth.compare, Value.isNull, Bool.or_true, if_true, Truth.isTrue, Bool.false_eq_true, false_iff]
    rintro ⟨rfl, hne⟩
    exact hne rfl
  · obtain ⟨order, horder, -, -, hsame⟩ := order?_of_plain hplain ha hb
    have hne : a ≠ .null := by
      rintro rfl
      cases ha
    simp [Truth.compare, isNull_eq_false ha, isNull_eq_false hb, horder, accepts, hsame, hne]

/-- The order operators agree: with null they hold on neither side. -/
theorem isTrue_compare {a b : Value} (h : Comparable a b) {op : Comparison} (hequal : op ≠ .equal) (hnotEqual : op ≠ .notEqual) :
    (Truth.compare op a b).isTrue = op.holds a b := by
  by_cases hnull : (a.isNull || b.isNull) = true
  · cases op <;> simp [Truth.compare, Comparison.holds, hnull, Truth.isTrue] at hequal hnotEqual ⊢
  · rcases h with rfl | rfl | ⟨type, hplain, ha, hb⟩
    · simp [Value.isNull] at hnull
    · simp [Value.isNull] at hnull
    · obtain ⟨order, horder, hcompare, -, -⟩ := order?_of_plain hplain ha hb
      cases op <;> cases order <;>
        simp [Truth.compare, Comparison.holds, hnull, horder, hcompare, accepts] at hequal hnotEqual ⊢

/-! ### What a key stands for -/

variable {table : Table} (row : TableRow table)

theorem isSome_column? {key : String} (h : table.hasColumn key = true) : ∃ type, table.column? key = some type :=
  Option.isSome_iff_exists.mp h

theorem hasColumn_of_column? {key : String} {type : SqlType} (h : table.column? key = some type) :
    table.hasColumn key = true := by
  rw [Table.hasColumn, OrderedMap.contains, ← Table.column?, h]
  rfl

theorem get?_nonNullColumns (cell : String → Value) (columns : OrderedMap SqlType) (key : String) :
    OrderedMap.get? (columns.filterMap fun column =>
        if (cell column.1).isNull then none else some (column.1, cell column.1)) key =
      if OrderedMap.contains columns key && !(cell key).isNull then some (cell key) else none := by
  induction columns with
  | nil => rfl
  | cons column rest ih =>
    obtain ⟨name, type⟩ := column
    by_cases same : name = key
    · subst same
      cases hnull : (cell name).isNull with
      | true => simpa [List.filterMap_cons, hnull, OrderedMap.contains] using ih
      | false => simp [hnull, OrderedMap.contains, OrderedMap.get?_cons]
    · cases hnull : (cell name).isNull <;>
        simpa [List.filterMap_cons, hnull, OrderedMap.contains, OrderedMap.get?_cons, same] using ih

theorem TableRow.get?_record (key : String) :
    OrderedMap.get? row.record key = if table.hasColumn key && !(row.cell key).isNull then some (row.cell key) else none :=
  get?_nonNullColumns row.cell table.columns key

theorem TableRow.resolve_key (key : String) : (Operand.key key).resolve row.record = row.value key := by
  rw [Operand.resolve, row.get?_record, TableRow.value]
  cases hcolumn : table.hasColumn key with
  | false => rfl
  | true =>
    cases hnull : (row.cell key).isNull with
    | false => rfl
    | true => exact (isNull_iff.mp hnull).symm

theorem TableRow.read_ofOperand (operand : Operand) :
    (Term.ofOperand table operand).read row.cells = operand.resolve row.record := by
  cases operand with
  | literal value => rfl
  | key key =>
    rw [row.resolve_key, TableRow.value, Term.ofOperand, Term.ofKey]
    cases hcolumn : table.hasColumn key with
    | false => rfl
    | true => simp [Term.read, TableRow.cells, hcolumn]

theorem inScope_ofOperand (operand : Operand) : (Term.ofOperand table operand).InScope row.cells := by
  cases operand with
  | literal value => trivial
  | key key =>
    rw [Term.ofOperand, Term.ofKey]
    cases hcolumn : table.hasColumn key with
    | false => trivial
    | true => simp [Term.InScope, TableRow.cells, hcolumn]

theorem TableRow.value_cases (key : String) :
    row.value key = .null ∨ ∃ type, table.column? key = some type ∧ SqlType.ofValue? (row.value key) = some type := by
  cases hcolumn : table.hasColumn key with
  | false => exact Or.inl (by simp [TableRow.value, hcolumn])
  | true =>
    obtain ⟨type, htype⟩ := isSome_column? hcolumn
    have hvalue : row.value key = row.cell key := by
      simp [TableRow.value, hcolumn]
    have hadmits := row.typed key type htype
    rw [SqlType.admits, Bool.or_eq_true, beq_iff_eq] at hadmits
    rw [hvalue]
    exact hadmits.imp isNull_iff.mp fun h => ⟨type, htype, h⟩

variable {row}

theorem Table.Plain.isPlain (hplain : table.Plain) {key : String} {type : SqlType} (h : table.column? key = some type) :
    type.isPlain = true :=
  hplain _ (OrderedMap.mem_of_get? h)

theorem comparable_admitted (hplain : table.Plain) {key : String} {value : Value} (h : table.admits key value = true) :
    Comparable (row.value key) value := by
  rcases row.value_cases key with hnull | ⟨type, htype, hvalue⟩
  · exact Or.inl hnull
  · simp only [Table.admits, htype, SqlType.admits, Bool.or_eq_true, beq_iff_eq] at h
    rcases h with hnull | hliteral
    · exact Or.inr (Or.inl (isNull_iff.mp hnull))
    · exact Or.inr (Or.inr ⟨type, hplain.isPlain htype, hvalue, hliteral⟩)

theorem Comparable.symm {a b : Value} (h : Comparable a b) : Comparable b a := by
  rcases h with h | h | ⟨type, hplain, ha, hb⟩
  · exact Or.inr (Or.inl h)
  · exact Or.inl h
  · exact Or.inr (Or.inr ⟨type, hplain, hb, ha⟩)

theorem Table.comparable_comm (table : Table) {lhs rhs : Operand} (h : table.comparable lhs rhs = true) :
    table.comparable rhs lhs = true := by
  cases lhs with
  | literal a => cases rhs <;> exact h
  | key k =>
    cases rhs with
    | literal b => exact h
    | key l =>
      simp only [comparable] at h ⊢
      cases hk : table.column? k with
      | none => cases table.column? l <;> rfl
      | some first =>
        cases hl : table.column? l with
        | none => rfl
        | some second =>
          simp only [hk, hl, beq_iff_eq] at h ⊢
          exact h.symm

/-- Operands that may be compared stand for values that may be compared, unless both are literals. -/
theorem comparable_resolve (hplain : table.Plain) {lhs rhs : Operand} (h : table.comparable lhs rhs = true) :
    (∃ a b, lhs = .literal a ∧ rhs = .literal b) ∨ Comparable (lhs.resolve row.record) (rhs.resolve row.record) := by
  cases lhs with
  | literal a =>
    cases rhs with
    | literal b => exact Or.inl ⟨a, b, rfl, rfl⟩
    | key k =>
      rw [row.resolve_key]
      exact Or.inr (comparable_admitted hplain h).symm
  | key k =>
    cases rhs with
    | literal b =>
      rw [row.resolve_key]
      exact Or.inr (comparable_admitted hplain h)
    | key l =>
      rw [row.resolve_key, row.resolve_key]
      rcases row.value_cases k with hnull | ⟨first, hfirst, hk⟩
      · exact Or.inr (Or.inl hnull)
      rcases row.value_cases l with hnull | ⟨second, hsecond, hl⟩
      · exact Or.inr (Or.inr (Or.inl hnull))
      simp only [Table.comparable, hfirst, hsecond, beq_iff_eq] at h
      exact Or.inr (Or.inr (Or.inr ⟨first, hplain.isPlain hfirst, hk, h ▸ hl⟩))

/-! ### One predicate after the other -/

section

variable (contains : Containment) {table : Table} (row : TableRow table)

theorem isTrue_compareNull (op : Comparison) {term : Term} {a b : Value} (hterm : term.read row.cells = a ∧ b = .null ∨
    term.read row.cells = b ∧ a = .null) :
    ((Condition.compareNull op term).truth contains row.cells).isTrue = op.holds a b := by
  have hnull : a = .null ∨ b = .null := hterm.symm.imp And.right And.right
  have hequal : (term.read row.cells).isNull = a.looselyEquals b := by
    rw [Bool.eq_iff_iff, looselyEquals_null_iff hnull, isNull_iff]
    rcases hterm with ⟨hread, rfl⟩ | ⟨hread, rfl⟩
    · rw [hread]
    · rw [hread, eq_comm]
  have horder : (a.isNull || b.isNull) = true := by
    rcases hnull with rfl | rfl <;> simp [Value.isNull]
  cases op <;> simp [Condition.compareNull, Condition.truth, Comparison.holds, hequal, horder]

/-- The condition of a comparison that is not decided at once and has no null literal. -/
theorem isTrue_termComparison {left right : Term} (h : Comparable (left.read row.cells) (right.read row.cells)) :
    ((Condition.notDistinct left right).truth contains row.cells).isTrue =
        Comparison.equal.holds (left.read row.cells) (right.read row.cells) ∧
      ((Condition.distinct left right).truth contains row.cells).isTrue =
        Comparison.notEqual.holds (left.read row.cells) (right.read row.cells) ∧
      ((left.read row.cells ≠ .null ∨ right.read row.cells ≠ .null) →
        ((Condition.compare .equal left right).truth contains row.cells).isTrue =
          Comparison.equal.holds (left.read row.cells) (right.read row.cells)) := by
  have halike : alike (left.read row.cells) (right.read row.cells) = (left.read row.cells).looselyEquals (right.read row.cells) := by
    rw [Bool.eq_iff_iff, alike_iff h, looselyEquals_iff h]
  refine ⟨?_, ?_, fun hne => ?_⟩
  · simp [Condition.truth, Comparison.holds, halike]
  · simp [Condition.truth, Comparison.holds, halike]
  · rw [Condition.truth, Comparison.holds, Bool.eq_iff_iff, isTrue_compare_equal h, looselyEquals_iff h]
    constructor
    · exact And.left
    · intro same
      refine ⟨same, fun hnull => ?_⟩
      rw [← same, hnull] at hne
      simp at hne

theorem isTrue_ofCompare (hplain : table.Plain) (op : Comparison) {lhs rhs : Operand} (h : table.comparable lhs rhs = true) :
    ((Condition.ofCompare table op lhs rhs).truth contains row.cells).isTrue =
      op.holds (lhs.resolve row.record) (rhs.resolve row.record) := by
  have hoperands : (∃ a b, lhs = .literal a ∧ rhs = .literal b) ∨ Comparable (lhs.resolve row.record) (rhs.resolve row.record) :=
    comparable_resolve hplain h
  rcases hoperands with ⟨a, b, rfl, rfl⟩ | hcomparable
  · exact Truth.isTrue_ofBool _
  have hleft := row.read_ofOperand lhs
  have hright := row.read_ofOperand rhs
  rw [← hleft, ← hright] at hcomparable ⊢
  obtain ⟨hnotDistinct, hdistinct, hequal⟩ := isTrue_termComparison contains row hcomparable
  unfold Condition.ofCompare
  split
  case h_1 a b => exact Truth.isTrue_ofBool _
  case h_2 key => exact isTrue_compareNull contains row op (Or.inr ⟨rfl, rfl⟩)
  case h_3 key => exact isTrue_compareNull contains row op (Or.inl ⟨rfl, rfl⟩)
  case h_4 a b =>
    cases op with
    | equal => exact hnotDistinct
    | notEqual => exact hdistinct
    | _ => exact isTrue_compare hcomparable (by decide) (by decide)
  case h_5 hliterals hnullKey hkeyNull hkeys =>
    have hne : (Term.ofOperand table lhs).read row.cells ≠ .null ∨ (Term.ofOperand table rhs).read row.cells ≠ .null := by
      rw [hleft, hright]
      cases lhs with
      | key k =>
        cases rhs with
        | key l => exact absurd rfl (hkeys k l rfl)
        | literal b =>
          refine Or.inr ?_
          rintro rfl
          exact hkeyNull k rfl rfl
      | literal a =>
        cases rhs with
        | literal b => exact absurd rfl (hliterals a b rfl)
        | key l =>
          refine Or.inl ?_
          rintro rfl
          exact hnullKey l rfl rfl
    cases op with
    | equal => exact hequal hne
    | notEqual => exact hdistinct
    | _ => exact isTrue_compare hcomparable (by decide) (by decide)

theorem isTrue_orNull (listed isNull : Bool) :
    (if listed then Truth.ofBool isNull else .no).isTrue = true ↔ listed = true ∧ isNull = true := by
  cases listed <;> cases isNull <;> simp [Truth.ofBool, Truth.isTrue]

/-- The alternatives of a list, null among them or not, are true of exactly its members. -/
theorem isTrue_listedTruth {value : Value} {values : List Value} (h : ∀ member ∈ values, Comparable value member) :
    (Condition.listedTruth value (values.filter fun member => !member.isNull) (values.any Value.isNull)).isTrue =
      values.any fun member => member.looselyEquals value := by
  rw [Condition.listedTruth, Truth.isTrue_or, Truth.isTrue_any_map, Bool.eq_iff_iff, Bool.or_eq_true, isTrue_orNull]
  simp only [List.any_eq_true]
  constructor
  · rintro (⟨member, hmember, hequal⟩ | ⟨⟨member, hlisted, hmember⟩, hnull⟩)
    · have hlisted : member ∈ values := (List.mem_filter.mp hmember).1
      have hcomparable := h member hlisted
      exact ⟨member, hlisted, (looselyEquals_iff hcomparable.symm).mpr ((isTrue_compare_equal hcomparable).mp hequal).1.symm⟩
    · have same : member = value := (isNull_iff.mp hmember).trans (isNull_iff.mp hnull).symm
      exact ⟨member, hlisted, (looselyEquals_iff (h member hlisted).symm).mpr same⟩
  · rintro ⟨member, hlisted, hloose⟩
    obtain rfl : member = value := (looselyEquals_iff (h member hlisted).symm).mp hloose
    by_cases hnull : member = .null
    · exact Or.inr ⟨⟨member, hlisted, isNull_iff.mpr hnull⟩, isNull_iff.mpr hnull⟩
    · refine Or.inl ⟨member, List.mem_filter.mpr ⟨hlisted, ?_⟩, (isTrue_compare_equal (h member hlisted)).mpr ⟨rfl, hnull⟩⟩
      rw [Bool.not_eq_true', ← Bool.not_eq_true, isNull_iff]
      exact hnull

theorem hasElement_value (hplain : table.Plain) (key : String) (element : Value) :
    (row.value key).hasElement element = false := by
  rcases row.value_cases key with hnull | ⟨type, htype, hvalue⟩
  · rw [hnull]
    rfl
  · have htype := hplain.isPlain htype
    cases hcell : row.value key with
    | array items =>
      rw [hcell] at hvalue
      cases hvalue
      cases htype
    | _ => rfl

theorem isTrue_ofElement (hplain : table.Plain) {element collection : Operand} (h : table.listable element collection = true) :
    ((Condition.ofElement table element collection).truth contains row.cells).isTrue =
      (collection.resolve row.record).hasElement (element.resolve row.record) := by
  unfold Condition.ofElement
  split
  case h_1 element collection => exact Truth.isTrue_ofBool _
  case h_2 key values =>
    have hvalue := row.read_ofOperand (.key key)
    rw [row.resolve_key] at hvalue ⊢
    have hcomparable : ∀ member ∈ values, Comparable (row.value key) member := fun member hmember =>
      comparable_admitted hplain (List.all_eq_true.mp h member hmember)
    have hlisted := isTrue_listedTruth hcomparable
    dsimp only
    split
    case isTrue hempty =>
      rw [Bool.and_eq_true, List.isEmpty_iff, Bool.not_eq_true'] at hempty
      rw [hempty.1, hempty.2] at hlisted
      exact hlisted
    case isFalse =>
      rw [Condition.truth]
      rw [← hvalue] at hlisted ⊢
      exact hlisted
  case h_3 key collection hne =>
    cases collection with
    | array values => exact absurd rfl (hne values)
    | _ => rfl
  case h_4 key hne =>
    rw [row.resolve_key, hasElement_value row hplain]
    split
    case h_1 hjson => cases hplain.isPlain hjson
    case h_2 => rfl

theorem isTrue_ofPattern (kind : TextPattern) {key : String} (text : String) (h : table.isText key = true) :
    ((Condition.ofPattern table kind key text).truth contains row.cells).isTrue =
      Predicate.patternHolds row.record kind key text := by
  rw [Condition.ofPattern, Predicate.patternHolds, row.get?_record]
  cases hcolumn : table.hasColumn key with
  | false => rfl
  | true =>
    obtain ⟨type, htype⟩ := isSome_column? hcolumn
    have hread : (Term.column key).read row.cells = row.cell key := by
      simp [Term.read, TableRow.cells, hcolumn]
    have hadmits := row.typed key type htype
    rw [Table.isText, htype] at h
    simp only [beq_iff_eq] at h
    rw [h, SqlType.admits, Bool.or_eq_true, beq_iff_eq] at hadmits
    rw [if_pos rfl, Condition.truth, hread]
    cases hcell : row.cell key with
    | null => rfl
    | string string => simp [Condition.likeTruth, Value.isNull, Like.accepts_likePattern]
    | _ => simp [hcell, Value.isNull, SqlType.ofValue?, FieldType.ofValue?, SqlType.ofFieldType] at hadmits

/-- A negated membership is the negation of the membership, or decided at once. -/
theorem ofPredicate_notElementOf (table : Table) (element collection : Operand) :
    Condition.ofPredicate table (.notElementOf element collection) = .isNotTrue (Condition.ofElement table element collection) ∨
      ∃ a b, element = .literal a ∧ collection = .literal b ∧
        Condition.ofPredicate table (.notElementOf element collection) = .const !b.hasElement a := by
  cases element with
  | key key => exact Or.inl rfl
  | literal a =>
    cases collection with
    | key key => exact Or.inl rfl
    | literal b => exact Or.inr ⟨a, b, rfl, rfl, rfl⟩

mutual

/-- A condition is true of a row exactly when its predicate holds of the record of the row. -/
theorem isTrue_ofPredicate (hplain : table.Plain) (predicate : Predicate) (h : table.types predicate = true) :
    ((Condition.ofPredicate table predicate).truth contains row.cells).isTrue = predicate.holds row.record := by
  cases predicate with
  | not inner =>
    rw [Condition.ofPredicate, Condition.truth, Truth.isTrue_ofBool, isTrue_ofPredicate hplain inner h]
    rfl
  | compare op lhs rhs => exact isTrue_ofCompare contains row hplain op h
  | elementOf element collection => exact isTrue_ofElement contains row hplain h
  | notElementOf element collection =>
    rcases ofPredicate_notElementOf table element collection with hnot | ⟨a, b, rfl, rfl, hconst⟩
    · rw [hnot, Condition.truth, Truth.isTrue_ofBool, isTrue_ofElement contains row hplain h]
      rfl
    · rw [hconst, Condition.truth, Truth.isTrue_ofBool]
      rfl
  | between value low high =>
    obtain ⟨hlow, hhigh⟩ := Bool.and_eq_true_iff.mp h
    rw [Condition.ofPredicate, Condition.truth, Condition.truths, Condition.truths, Condition.truths, Truth.all, List.foldr_cons,
      List.foldr_cons, List.foldr_nil, Truth.and_yes, Truth.isTrue_and, isTrue_ofCompare contains row hplain _ hlow,
      isTrue_ofCompare contains row hplain _ hhigh]
    rfl
  | notBetween value low high =>
    obtain ⟨hlow, hhigh⟩ := Bool.and_eq_true_iff.mp h
    rw [Condition.ofPredicate, Condition.truth, Condition.truths, Condition.truths, Condition.truths, Truth.any, List.foldr_cons,
      List.foldr_cons, List.foldr_nil, Truth.or_no, Truth.isTrue_or, isTrue_ofCompare contains row hplain _ (table.comparable_comm hlow),
      isTrue_ofCompare contains row hplain _ hhigh]
    rfl
  | pattern kind key text => exact isTrue_ofPattern contains row kind text h
  | all parts =>
    have hparts := (isTrue_ofPredicates hplain parts h).1
    rw [Condition.ofPredicate]
    cases parts with
    | nil => rfl
    | cons first rest => exact hparts
  | any parts =>
    have hparts := (isTrue_ofPredicates hplain parts h).2
    rw [Condition.ofPredicate]
    cases parts with
    | nil => rfl
    | cons first rest => exact hparts
termination_by structural predicate

theorem isTrue_ofPredicates (hplain : table.Plain) (parts : List Predicate) (h : table.typesAll parts = true) :
    (Truth.all (Condition.truths contains row.cells (Condition.ofPredicates table parts))).isTrue =
        Predicate.allHold row.record parts ∧
      (Truth.any (Condition.truths contains row.cells (Condition.ofPredicates table parts))).isTrue =
        Predicate.anyHolds row.record parts := by
  cases parts with
  | nil => exact ⟨rfl, rfl⟩
  | cons first rest =>
    obtain ⟨hfirst, hrest⟩ := Bool.and_eq_true_iff.mp h
    have hone := isTrue_ofPredicate hplain first hfirst
    obtain ⟨hall, hany⟩ := isTrue_ofPredicates hplain rest hrest
    rw [Condition.ofPredicates, Condition.truths, Truth.all, Truth.any, List.foldr_cons, List.foldr_cons, Truth.isTrue_and,
      Truth.isTrue_or, hone]
    exact ⟨congrArg _ hall, congrArg _ hany⟩
termination_by structural parts

end

/-! ### The conditions of predicates can be read -/

theorem wellFormed_ofCompare (op : Comparison) (lhs rhs : Operand) :
    (Condition.ofCompare table op lhs rhs).WellFormed row.cells := by
  have hleft := inScope_ofOperand row lhs
  have hright := inScope_ofOperand row rhs
  unfold Condition.ofCompare
  split
  case h_1 => trivial
  case h_2 key => cases op <;> first | exact hright | trivial
  case h_3 key => cases op <;> first | exact hleft | trivial
  case h_4 a b => cases op <;> exact ⟨hleft, hright⟩
  case h_5 => cases op <;> exact ⟨hleft, hright⟩

theorem wellFormed_ofElement (element collection : Operand) :
    (Condition.ofElement table element collection).WellFormed row.cells := by
  unfold Condition.ofElement
  split
  case h_1 => trivial
  case h_2 key values =>
    dsimp only
    split
    case isTrue => trivial
    case isFalse hnonempty =>
      refine ⟨inScope_ofOperand row (.key key), ?_⟩
      simpa [Classical.or_iff_not_imp_left] using hnonempty
  case h_3 => trivial
  case h_4 key hne =>
    split
    case h_1 hjson =>
      refine ⟨?_, inScope_ofOperand row element⟩
      simp [TableRow.cells, hasColumn_of_column? hjson]
    case h_2 => trivial

mutual

theorem wellFormed_ofPredicate (predicate : Predicate) : (Condition.ofPredicate table predicate).WellFormed row.cells := by
  cases predicate with
  | not inner => exact wellFormed_ofPredicate inner
  | compare op lhs rhs => exact wellFormed_ofCompare row op lhs rhs
  | elementOf element collection => exact wellFormed_ofElement row element collection
  | notElementOf element collection =>
    rcases ofPredicate_notElementOf table element collection with hnot | ⟨a, b, -, -, hconst⟩
    · rw [hnot]
      exact wellFormed_ofElement row element collection
    · rw [hconst]
      trivial
  | between value low high =>
    exact ⟨List.cons_ne_nil _ _, wellFormed_ofCompare row _ _ _, wellFormed_ofCompare row _ _ _, trivial⟩
  | notBetween value low high =>
    exact ⟨List.cons_ne_nil _ _, wellFormed_ofCompare row _ _ _, wellFormed_ofCompare row _ _ _, trivial⟩
  | pattern kind key text =>
    rw [Condition.ofPredicate, Condition.ofPattern]
    split
    · next hcolumn => simp [Condition.WellFormed, TableRow.cells, hcolumn]
    · trivial
  | all parts =>
    have hparts := wellFormed_ofPredicates parts
    rw [Condition.ofPredicate]
    cases parts with
    | nil => trivial
    | cons first rest => exact ⟨List.cons_ne_nil _ _, hparts⟩
  | any parts =>
    have hparts := wellFormed_ofPredicates parts
    rw [Condition.ofPredicate]
    cases parts with
    | nil => trivial
    | cons first rest => exact ⟨List.cons_ne_nil _ _, hparts⟩
termination_by structural predicate

theorem wellFormed_ofPredicates (parts : List Predicate) :
    Condition.AllWellFormed row.cells (Condition.ofPredicates table parts) := by
  cases parts with
  | nil => trivial
  | cons first rest => exact ⟨wellFormed_ofPredicate first, wellFormed_ofPredicates rest⟩
termination_by structural parts

end

/-! ### The text of a condition -/

/-- The text of the condition of a predicate, read with the values that are bound to it among others, is true on exactly the rows whose records satisfy the predicate. -/
theorem read_ofPredicate (hplain : table.Plain) {predicate : Predicate} (htypes : table.types predicate = true)
    (before after : List Value) :
    let pieces := (Condition.ofPredicate table predicate).pieces
    ∃ truth, Sql.read ⟨contains, row.cells, before ++ pieces.parameters ++ after⟩ (String.join (pieces.texts before.length)) =
        some truth ∧
      (truth = .yes ↔ predicate.holds row.record = true) := by
  intro pieces
  have hbound : Sql.Bound ⟨contains, row.cells, before ++ pieces.parameters ++ after⟩ before.length pieces := by
    rw [Sql.Bound, List.append_assoc, List.drop_left]
    exact List.prefix_append _ _
  refine ⟨_, Sql.read_condition (wellFormed_ofPredicate row predicate) hbound, ?_⟩
  rw [← isTrue_ofPredicate contains row hplain predicate htypes]
  cases (Condition.ofPredicate table predicate).truth contains row.cells <;> simp [Truth.isTrue]

end

/-- A table with a name, an age and the day of the last visit. -/
def visitors : Table where
  name := "visitors"
  columns := [("name", .text), ("age", .bigint), ("visit", .date)]

/-- A visitor of unknown age who never came. -/
def ann : TableRow visitors where
  cell name := if name = "name" then .string "Ann" else .null
  typed name type h := by
    by_cases hname : name = "name"
    · subst hname
      cases h
      rfl
    · rw [if_neg hname]
      rfl

/-- Not those of an age up to 30, nor those who came on a day of the list or have a rank. -/
def strangers : Predicate :=
  .not (.any [.between (.key "age") (.literal (.integer 0)) (.literal (.integer 30)),
    .elementOf (.key "visit") (.literal (.array [.date { year := 2024, month := 2, day := 29 }])),
    .compare .equal (.key "rank") (.literal (.number ⟨0⟩)), .pattern .startsWith "name" "B_"])

theorem read_strangers : visitors.Plain ∧ visitors.types strangers = true ∧
    ∃ truth, Sql.read ⟨fun _ _ => false, ann.cells, (Condition.ofPredicate visitors strangers).pieces.parameters⟩
        (Statement.ofPieces (Condition.ofPredicate visitors strangers).pieces).text = some truth ∧
      (truth = .yes ↔ strangers.holds ann.record = true) := by
  have hplain : visitors.Plain := by
    simp [Table.Plain, visitors, SqlType.isPlain]
  have htypes : visitors.types strangers = true := rfl
  have hread := read_ofPredicate (fun _ _ => false) ann hplain htypes [] []
  simp only [List.nil_append, List.append_nil] at hread
  exact ⟨hplain, htypes, hread⟩

end Relational

end ObjectStore
