import ObjectStore.Proofs.Column
import ObjectStore.Relational.Type

/-!
# Column types under updates

A column is inferred from the operand of an update, but what the update leaves in the field depends on the current value too. The two go together because an update never leaves a value of a third type: it leaves one of the type of its operand or one of the type that the field has had, and the column keeps both. Only integers that overflow get away, for their sum or product is a decimal, which no column for integers or doubles keeps.
-/

namespace ObjectStore

namespace Relational

/-! ### Columns -/

namespace SqlType

/-- Whether a column keeps a value. -/
def Keeps (type : SqlType) (value : Value) : Prop := ∃ written, ofValue? value = some written ∧ type.holds written = true

variable {type : SqlType} {value : Value}

theorem holds_numeric_iff : type.holds .numeric = true ↔ type = .numeric := by
  cases type <;> decide

theorem ofValue?_of_some {needed : FieldType} (h : FieldType.ofValue? value = some needed) :
    ofValue? value = some (ofFieldType needed) := by
  rw [ofValue?, h, Option.map_some]

theorem Keeps.congr {old : Value} (h : type.Keeps old) (hsame : FieldType.ofValue? value = FieldType.ofValue? old) :
    type.Keeps value := by
  obtain ⟨written, hwritten, hholds⟩ := h
  refine ⟨written, ?_, hholds⟩
  rw [ofValue?, hsame]
  exact hwritten

end SqlType

/-- A column that keeps the value of a field and the type that is inferred for an update keeps what the update makes of the field, except where integers overflow and the column is not for decimals. From nothing an update makes a value of exactly the inferred type. -/
theorem updates_preserve_types {type : SqlType} {update : Update} {current : Option Value} {needed : FieldType} {value : Value}
    (hcurrent : ∀ old ∈ Update.present current, type.Keeps old) (hneeded : FieldType.ofUpdate? update = some needed)
    (hholds : type.holds (.ofFieldType needed) = true) (happly : update.apply current = .ok (some value)) :
    (∃ written, SqlType.ofValue? value = some written ∧
      (type.holds written = true ↔ ¬ (update.Overflows (Update.present current) ∧ type ≠ .numeric))) ∧
      (Update.present current = none → FieldType.ofValue? value = some needed) := by
  have hpresent : update.applyTo (Update.present current) = .ok (some value) := happly
  have hleaves := Update.leaves_of_applyTo hpresent hneeded
  constructor
  · cases hleaves with
    | inferred hfits hinferred =>
      exact ⟨_, SqlType.ofValue?_of_some hinferred, iff_of_true hholds fun hlost => hfits hlost.1⟩
    | numbers operand _ _ _ hnumbers =>
      rcases hnumbers with ⟨hoverflow, hdecimal⟩ | ⟨hfits, old, hold, hsame⟩
      · refine ⟨.numeric, SqlType.ofValue?_of_some hdecimal, ?_⟩
        rw [SqlType.holds_numeric_iff, not_and, not_not]
        exact ⟨fun htype _ => htype, fun htype => htype hoverflow⟩
      · obtain ⟨written, hwritten, hkept⟩ := (hcurrent old hold).congr hsame
        exact ⟨written, hwritten, iff_of_true hkept fun hlost => hfits hlost.1⟩
  · intro hnothing
    rw [hnothing] at hleaves
    exact hleaves.of_none

/-- A sum of integers that only a column for decimals keeps. -/
theorem overflow_kept_as_decimal :
    ∃ written, SqlType.ofValue? (.decimal ⟨9223372036854775808, 0⟩) = some written ∧
      SqlType.numeric.holds written = true ∧ SqlType.bigint.holds written = false := by
  have hoverflow : (Update.increment (.integer 1)).Overflows (some (.integer 9223372036854775807)) := by
    refine .increment (.integers fun word hword => ?_)
    have hbound := Int64.toInt_lt word
    rw [hword] at hbound
    exact absurd hbound (by decide)
  have hpreserved (type : SqlType) (hbigint : type.holds .bigint = true) :=
    @updates_preserve_types type (.increment (.integer 1)) (some (.integer 9223372036854775807)) .integer
      (.decimal ⟨9223372036854775808, 0⟩) (by rintro old ⟨⟩; exact ⟨_, rfl, hbigint⟩) rfl hbigint rfl
  obtain ⟨⟨written, hwritten, hkept⟩, -⟩ := hpreserved .numeric rfl
  obtain ⟨⟨again, hagain, hlost⟩, -⟩ := hpreserved .bigint rfl
  obtain rfl := Option.some.inj (hwritten.symm.trans hagain)
  refine ⟨written, hwritten, hkept.mpr fun h => h.2 rfl, ?_⟩
  exact Bool.eq_false_iff.mpr fun hholds => hlost.mp hholds ⟨hoverflow, by decide⟩

end Relational

end ObjectStore
