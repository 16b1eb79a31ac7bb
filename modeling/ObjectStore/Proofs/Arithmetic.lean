import ObjectStore.Proofs.Number.Rational
import ObjectStore.Proofs.Update

/-!
# Arithmetic without rounding

Sums and products of decimals are exact: a sum is taken at a scale that loses no digit of either, and a product adds up the scales. A factor that equals one is left out, which changes the scale of the product and not the number. Integers keep to these numbers too. Their arithmetic gives the integer of the exact result if that fits, and its decimal otherwise.
-/

namespace ObjectStore

namespace Decimal

theorem toRat_ofInt (n : Int) : (ofInt n).toRat = n := by
  simp [toRat, ofInt]

theorem toRat_add (a b : Decimal) : (a.add b).toRat = a.toRat + b.toRat := by
  have hscale : (10 : ℚ) ^ max a.scale b.scale * 10 ^ (-max a.scale b.scale) = 1 := by
    rw [← zpow_add₀ (by decide), add_neg_cancel, zpow_zero]
  rw [add, toRat, Int.cast_add, cast_digitsAt (Int.le_max_left _ _), cast_digitsAt (Int.le_max_right _ _), ← add_mul, mul_assoc,
    hscale, mul_one]

theorem toRat_mul (a b : Decimal) : (a.mul b).toRat = a.toRat * b.toRat := by
  have hone : (ofInt 1).toRat = 1 := by
    rw [toRat_ofInt, Int.cast_one]
  rw [mul]
  split
  · next hleft => rw [same_iff_toRat_eq.mp hleft, hone, one_mul]
  split
  · next hright => rw [same_iff_toRat_eq.mp hright, hone, mul_one]
  · simp only [toRat]
    rw [neg_add, zpow_add₀ (by decide), Int.cast_mul, mul_mul_mul_comm]

theorem toRat_inj_of_scale_eq {a b : Decimal} (hscale : a.scale = b.scale) (h : a.toRat = b.toRat) : a = b := by
  have hpower : (10 : ℚ) ^ (-b.scale) ≠ 0 := zpow_ne_zero _ (by decide)
  rw [toRat, toRat, hscale] at h
  cases a
  cases b
  simp only [mk.injEq]
  exact ⟨Int.cast_injective (mul_right_cancel₀ hpower h), hscale⟩

end Decimal

namespace Arithmetic

def onRat : Arithmetic → ℚ → ℚ → ℚ
  | add, p, q => p + q
  | multiply, p, q => p * q

theorem toRat_onDecimal (op : Arithmetic) (a b : Decimal) : (op.onDecimal a b).toRat = op.onRat a.toRat b.toRat := by
  cases op with
  | add => exact Decimal.toRat_add a b
  | multiply => exact Decimal.toRat_mul a b

theorem cast_onInt (op : Arithmetic) (m n : Int) : (op.onInt m n : ℚ) = op.onRat m n := by
  cases op with
  | add => exact Int.cast_add m n
  | multiply => exact Int.cast_mul m n

theorem scale_onDecimal_ofInt (op : Arithmetic) (m n : Int) : (op.onDecimal (.ofInt m) (.ofInt n)).scale = 0 := by
  cases op with
  | add => rfl
  | multiply =>
    simp only [onDecimal, Decimal.mul]
    split
    · rfl
    split
    · rfl
    · rfl

theorem onDecimal_ofInt (op : Arithmetic) (m n : Int) : op.onDecimal (.ofInt m) (.ofInt n) = .ofInt (op.onInt m n) := by
  apply Decimal.toRat_inj_of_scale_eq (op.scale_onDecimal_ofInt m n)
  rw [toRat_onDecimal, Decimal.toRat_ofInt, Decimal.toRat_ofInt, Decimal.toRat_ofInt, cast_onInt]

theorem apply_integers (op : Arithmetic) (m n : Int64) :
    op.apply (.integer m) (.integer n) = .ok (.ofInt (op.onInt m.toInt n.toInt)) := by
  simp only [apply, operand, Value.isNumeric, if_true, bind, Except.bind, Value.ofInt]
  cases int64? (op.onInt m.toInt n.toInt) with
  | some word => rfl
  | none => exact congrArg (fun d => Except.ok (Value.decimal d)) (op.onDecimal_ofInt m.toInt n.toInt)

end Arithmetic

/-! ### Integers and decimals -/

namespace Value

/-- Whether a value is a number of a kind that arithmetic does not round. -/
def isExact : Value → Bool
  | integer _ | decimal _ => true
  | _ => false

/-- The rational number of a value, where it has one. -/
def amount (value : Value) : ℚ := value.rational?.getD 0

theorem rational?_of_isExact {value : Value} (h : value.isExact = true) : value.rational? = some value.amount := by
  cases value <;> first | rfl | cases h

theorem isExact_ofInt (n : Int) : (ofInt n).isExact = true := by
  rw [ofInt]
  split <;> rfl

theorem amount_ofInt (n : Int) : (ofInt n).amount = n := by
  rw [ofInt]
  split
  · next word hword =>
    show (word.toInt : ℚ) = n
    rw [toInt_of_int64? hword]
  · exact Decimal.toRat_ofInt n

theorem ofInt_toInt (word : Int64) : ofInt word.toInt = integer word := by
  rw [ofInt, int64?_toInt]

theorem ofInt_of_overflow {n : Int} (h : ∀ word : Int64, word.toInt ≠ n) : ofInt n = decimal (.ofInt n) := by
  rw [ofInt]
  split
  · next word hword => exact absurd (toInt_of_int64? hword) (h word)
  · rfl

end Value

/-- Integers and decimals are added and multiplied exactly. Integers give an integer if it fits. -/
theorem Arithmetic.exists_apply_exact (op : Arithmetic) {a b : Value} (ha : a.isExact = true) (hb : b.isExact = true) :
    ∃ result, op.apply a b = .ok result ∧ result.isExact = true ∧ result.amount = op.onRat a.amount b.amount ∧
      (a.kind = .integer → b.kind = .integer → (∃ word : Int64, result.amount = word.toInt) → result.kind = .integer) := by
  have hdecimals (d e : Decimal) : (Value.decimal (op.onDecimal d e)).amount = op.onRat d.toRat e.toRat := op.toRat_onDecimal d e
  have hinteger (n : Int64) : (Decimal.ofInt n.toInt).toRat = n.toInt := Decimal.toRat_ofInt n.toInt
  cases a with
  | integer m =>
    cases b with
    | integer n =>
      refine ⟨_, op.apply_integers m n, Value.isExact_ofInt _, ?_, ?_⟩
      · rw [Value.amount_ofInt, op.cast_onInt]
        rfl
      · rintro - - ⟨word, hword⟩
        rw [Int.cast_injective ((Value.amount_ofInt _).symm.trans hword), Value.ofInt_toInt]
        rfl
    | decimal e => exact ⟨_, rfl, rfl, (hdecimals _ e).trans (congrArg (op.onRat · e.toRat) (hinteger m)), nofun⟩
    | _ => cases hb
  | decimal d =>
    cases b with
    | integer n => exact ⟨_, rfl, rfl, (hdecimals d _).trans (congrArg (op.onRat d.toRat) (hinteger n)), nofun⟩
    | decimal e => exact ⟨_, rfl, rfl, hdecimals d e, nofun⟩
    | _ => cases hb
  | _ => cases ha

end ObjectStore
