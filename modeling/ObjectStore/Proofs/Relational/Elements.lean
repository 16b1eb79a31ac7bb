import ObjectStore.Proofs.ExtendedJson.Containment
import ObjectStore.Proofs.Relational.Reading

/-!
# Elements of a JSON column

To ask for an element, a literal is bound in an array of its own, and the column must contain that array. A server answers by containment of the JSON forms: some item of the column must contain the literal. So a matching row is missed only where equal numbers are spelled differently, but an item that has more than the literal is found as if it were equal to it. Where items and literal are comparable, the answer is that of the membership test.
-/

namespace ObjectStore

namespace Relational

open ExtendedJson (encode Comparable SpellsNumbersAlike)

/-- Containment of values as a JSON column keeps them. -/
def formContainment (numeral : Double → ℚ) : Containment := fun document part =>
  match ColumnJson.encode document, ColumnJson.encode part with
  | .ok whole, .ok sought => Json.contains numeral whole sought
  | _, _ => false

variable {numeral : Double → ℚ} {table : Table} {key : String} {stored literal : Value} {cells : Cells}

theorem ofPredicate_elementOf (hcolumn : table.column? key = some .jsonb) (literal : Value) :
    Condition.ofPredicate table (.elementOf (.literal literal) (.key key)) = .hasElement key (.value literal) := by
  simp [Condition.ofPredicate, Condition.ofElement, hcolumn, Term.ofOperand]

theorem read_elementOf (contains : Containment) (hcolumn : table.column? key = some .jsonb) (literal : Value)
    (hcell : cells key = some stored) :
    let pieces := (Condition.ofPredicate table (.elementOf (.literal literal) (.key key))).pieces
    pieces.parameters = [.array [literal]] ∧
      Sql.read ⟨contains, cells, pieces.parameters⟩ (Statement.ofPieces pieces).text =
        some (Condition.containedTruth contains stored (.array [literal])) := by
  intro pieces
  have hpieces : pieces = (Condition.hasElement key (.value literal)).pieces := by
    rw [← ofPredicate_elementOf hcolumn]
  have hscope : (Condition.hasElement key (.value literal)).WellFormed cells := by
    simp [Condition.WellFormed, Term.InScope, hcell]
  have hread : (Term.column key).read cells = stored := by
    rw [Term.read, hcell, Option.getD_some]
  refine ⟨by rw [hpieces]; rfl, ?_⟩
  rw [hpieces, Sql.read_ofPieces contains hscope, Condition.truth, hread]
  rfl

/-- A document contains an array of one literal if it is an array with an item that contains the literal. -/
theorem formContainment_singleton_iff :
    formContainment numeral stored (.array [literal]) = true ↔
      ∃ items, stored = .array items ∧ ∃ item ∈ items, Json.contains numeral (encode item) (encode literal) = true := by
  constructor
  · intro h
    have hcontains : Json.contains numeral (encode stored) (encode (.array [literal])) = true := by
      cases stored with
      | array items => exact h
      | object fields => exact h
      | _ => cases h
    obtain ⟨items, rfl⟩ := ExtendedJson.array_of_contains hcontains
    exact ⟨items, rfl, ExtendedJson.contains_encode_array.mp hcontains literal List.mem_cons_self⟩
  · rintro ⟨items, rfl, hitem⟩
    exact ExtendedJson.contains_encode_array.mpr (List.forall_mem_singleton.mpr hitem)

theorem holds_elementOf_iff (literal : Value) {record : Fields} (hfield : OrderedMap.get? record key = some stored) :
    (Predicate.elementOf (.literal literal) (.key key)).holds record = true ↔
      ∃ items, stored = .array items ∧ ∃ item ∈ items, item.looselyEquals literal = true := by
  simp only [Predicate.holds, Operand.resolve, hfield, Option.getD_some]
  cases stored with
  | array items => simp [Value.hasElement]
  | _ => simp [Value.hasElement]

/-- What a server answers that is asked for an element of a JSON column. It finds the arrays with an item that contains the literal. It misses none that the membership test accepts if equal numbers are spelled alike, and it finds no others if the items are comparable with the literal. -/
theorem elements_found (hnumeral : Json.Numerals numeral) (hcolumn : table.column? key = some .jsonb)
    (hkind : stored.kind = .array ∨ stored.kind = .object) (hwell : stored.wellFormed = true) (hwell' : literal.wellFormed = true)
    (hcell : cells key = some stored) {record : Fields} (hfield : OrderedMap.get? record key = some stored) :
    let predicate := Predicate.elementOf (.literal literal) (.key key)
    let pieces := (Condition.ofPredicate table predicate).pieces
    ∃ truth, Sql.read ⟨formContainment numeral, cells, pieces.parameters⟩ (Statement.ofPieces pieces).text = some truth ∧
      (truth = .yes ↔ ∃ items, stored = .array items ∧
        ∃ item ∈ items, Json.contains numeral (encode item) (encode literal) = true) ∧
      (SpellsNumbersAlike stored literal → predicate.holds record = true → truth = .yes) ∧
      ((∀ items, stored = .array items → ∀ item ∈ items, Comparable item literal) →
        (truth = .yes ↔ predicate.holds record = true)) := by
  intro predicate pieces
  have hnull : stored.isNull = false := by
    cases stored with
    | null => simp [Value.kind] at hkind
    | _ => rfl
  have htruth : Condition.containedTruth (formContainment numeral) stored (.array [literal]) = .yes ↔
      ∃ items, stored = .array items ∧ ∃ item ∈ items, Json.contains numeral (encode item) (encode literal) = true := by
    rw [← formContainment_singleton_iff, Condition.containedTruth, hnull]
    cases formContainment numeral stored (.array [literal]) <;> simp [Truth.ofBool, Value.isNull]
  have hholds := holds_elementOf_iff literal hfield
  have hitems {items : List Value} (harray : stored = .array items) : ∀ item ∈ items, item.wellFormed = true := by
    rw [harray] at hwell
    exact (Value.everywhere_array_iff.mp hwell).2
  refine ⟨_, (read_elementOf _ hcolumn literal hcell).2, htruth, fun hspelled h => ?_, fun hcomparable => ?_⟩
  · obtain ⟨items, rfl, item, hitem, hsame⟩ := hholds.mp h
    have hinside : SpellsNumbersAlike item literal := fun a b ha hb => hspelled a b (.item hitem ha) hb
    exact htruth.mpr ⟨items, rfl, item, hitem, ExtendedJson.contains_of_looselyEquals hnumeral (hitems rfl item hitem) hwell' hinside hsame⟩
  · rw [htruth, hholds]
    refine exists_congr fun items => and_congr_right fun harray => exists_congr fun item => and_congr_right fun hitem => ?_
    exact (hcomparable items harray item hitem).contains_iff hnumeral (hitems harray item hitem) hwell'

theorem isDate_leapDay : Calendar.isDate 2024 2 29 = true := by
  decide

/-- Items of several kinds, among them an object with a double. -/
def mixedItems : List Value :=
  [.integer 3, .object [("b", .number ⟨0⟩), ("a", .string "x")], .array [],
    .date { year := 2024, month := 2, day := 29, valid := isDate_leapDay }]

theorem mixed_elements_found :
    let table : Table := { name := "T", columns := [("_id", .text), ("tags", .jsonb)] }
    let record : Fields := [("tags", .array mixedItems)]
    let literal : Value := .object [("a", .string "x"), ("b", .integer 0)]
    let predicate := Predicate.elementOf (.literal literal) (.key "tags")
    table.column? "tags" = some .jsonb ∧ (Value.array mixedItems).wellFormed = true ∧ literal.wellFormed = true ∧
      (∀ item ∈ mixedItems, Comparable item literal) ∧ predicate.holds record = true ∧
      Sql.read ⟨formContainment Double.toRat, OrderedMap.get? record, [.array [literal]]⟩ "(\"tags\" @> $1::jsonb)" = some .yes := by
  intro table record literal predicate
  have hcolumn : table.column? "tags" = some .jsonb := rfl
  have hwell : (Value.array mixedItems).wellFormed = true := by
    decide
  have hwell' : literal.wellFormed = true := by
    decide
  have hfield : OrderedMap.get? record "tags" = some (.array mixedItems) := rfl
  have hplain : ∀ item ∈ mixedItems, item.everywhere ExtendedJson.hasPlainNumber = true := by
    decide
  have houtline : ∀ item ∈ mixedItems, ExtendedJson.sameOutline item literal = true := by
    decide
  have hordinary : ∀ item ∈ mixedItems, ExtendedJson.lacksCountedLeap item = true := by
    decide
  have hcomparable : ∀ item ∈ mixedItems, Comparable item literal := fun item hitem =>
    { spelled := ExtendedJson.spellsNumbersAlike_of_plain (hplain item hitem) (by decide)
      outline := houtline item hitem
      ordinary := ⟨hordinary item hitem, by decide⟩
      numbers := by decide }
  have hholds : predicate.holds record = true := by
    decide
  obtain ⟨truth, hread, -, -, hagrees⟩ := elements_found Json.numerals_toRat hcolumn (.inl rfl) hwell hwell' hfield hfield
  have htruth := (hagrees fun items harray => Value.array.inj harray ▸ hcomparable).mpr hholds
  rw [htruth] at hread
  exact ⟨hcolumn, hwell, hwell', hcomparable, hholds, hread⟩

/-- An object is found that has one field more than the literal. -/
theorem fuller_object_found :
    let table : Table := { name := "T", columns := [("_id", .text), ("tags", .jsonb)] }
    let record : Fields := [("tags", .array [.object [("a", .integer 1), ("b", .integer 2)]])]
    let literal : Value := .object [("a", .integer 1)]
    let predicate := Predicate.elementOf (.literal literal) (.key "tags")
    (Condition.ofPredicate table predicate).pieces.parameters = [.array [literal]] ∧
      Sql.read ⟨formContainment Double.toRat, OrderedMap.get? record, [.array [literal]]⟩
        (Statement.ofPieces (Condition.ofPredicate table predicate).pieces).text = some .yes ∧
      predicate.holds record = false := by
  intro table record literal predicate
  have hcolumn : table.column? "tags" = some .jsonb := rfl
  have hcell : OrderedMap.get? record "tags" = some (.array [.object [("a", .integer 1), ("b", .integer 2)]]) := rfl
  obtain ⟨hparameters, hread⟩ := read_elementOf (formContainment Double.toRat) hcolumn literal hcell
  have hcontained : formContainment Double.toRat (.array [.object [("a", .integer 1), ("b", .integer 2)]]) (.array [literal]) = true := by
    decide
  have hholds : predicate.holds record = false := by
    decide
  rw [Condition.containedTruth, hcontained] at hread
  exact ⟨hparameters, hread, hholds⟩

end Relational

end ObjectStore
