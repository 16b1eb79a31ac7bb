import ObjectStore.Proofs.Number.Rational
import ObjectStore.Proofs.Value.Loose

/-!
# One order for numbers of all kinds

Integers, decimals and finite doubles each stand for one rational number, and nothing but this number decides how they are ordered and whether they are loosely equal. No step of a comparison rounds: an integer beyond the whole numbers that doubles can tell apart, a subnormal double and a negative zero all keep their places. So the order is that of a line on which the numbers of all kinds lie, equal ones at one point.
-/

namespace ObjectStore

namespace Value

/-- Whether a value is a number and neither an infinity nor a NaN. -/
def isFinite : Value → Bool
  | integer _ | decimal _ => true
  | number x => x.isFinite
  | _ => false

theorem isFinite_iff {value : Value} : value.isFinite = true ↔ ∃ q, value.rational? = some q := by
  cases value with
  | integer n => exact iff_of_true rfl ⟨n.toInt, rfl⟩
  | decimal d => exact iff_of_true rfl ⟨d.toRat, rfl⟩
  | number x =>
    simp only [isFinite, rational?]
    constructor
    · intro h
      exact ⟨x.toRat, if_pos h⟩
    · rintro ⟨q, hq⟩
      exact (eq_toRat_of_rational? hq).1
  | _ =>
    refine iff_of_false Bool.false_ne_true ?_
    rintro ⟨q, ⟨⟩⟩

theorem isNumeric_of_rational? {value : Value} {q : ℚ} (h : value.rational? = some q) : value.isNumeric = true := by
  cases value <;> first | rfl | cases h

theorem isScalar_of_isNumeric {value : Value} (h : value.isNumeric = true) : value.isScalar = true := by
  cases value <;> first | rfl | cases h

section Numbers

variable {a b : Value} {p q : ℚ} (ha : a.rational? = some p) (hb : b.rational? = some q)

include ha hb

/-- Numbers are loosely equal when they are one rational number. -/
theorem looselyEquals_iff_of_rational? : a.looselyEquals b = true ↔ p = q := by
  have hnumeric := isNumeric_of_rational? ha
  rw [looselyEquals_of_isScalar (isScalar_of_isNumeric hnumeric), looseScalar, hnumeric, isNumeric_of_rational? hb, Bool.and_self,
    if_pos rfl, compare?_of_rational? ha hb, beq_iff_eq, Option.some.injEq, cmp_eq_eq_iff]

/-- Whether a value is ordered before another one or at its place. -/
def AtMost (a b : Value) : Prop := ∃ order, a.compare? b = some order ∧ order.isLE = true

theorem atMost_iff_of_rational? : a.AtMost b ↔ p ≤ q := by
  have hcompare := compare?_of_rational? ha hb
  constructor
  · rintro ⟨order, horder, hle⟩
    obtain rfl := Option.some.inj (hcompare.symm.trans horder)
    exact not_lt.mp fun hless => Ordering.isLE_iff_ne_gt.mp hle hless.cmp_eq_gt
  · intro h
    refine ⟨_, hcompare, Ordering.isLE_iff_ne_gt.mpr fun hgreater => ?_⟩
    exact not_lt.mpr h ((cmp_eq_gt_iff p q).mp hgreater)

end Numbers

/-- Finite numbers of any kind are ordered exactly as the rational numbers that they stand for, and they are loosely equal exactly when these are one number. -/
theorem numbers_ordered_exactly {a b c : Value} (ha : a.isFinite = true) (hb : b.isFinite = true) (hc : c.isFinite = true) :
    (∃ p q, a.rational? = some p ∧ b.rational? = some q ∧ a.compare? b = some (cmp p q) ∧ (a.looselyEquals b = true ↔ p = q)) ∧
      (a.AtMost b ∨ b.AtMost a) ∧ (a.AtMost b → b.AtMost a → a.looselyEquals b = true) ∧ (a.AtMost b → b.AtMost c → a.AtMost c) := by
  obtain ⟨p, hp⟩ := isFinite_iff.mp ha
  obtain ⟨q, hq⟩ := isFinite_iff.mp hb
  obtain ⟨r, hr⟩ := isFinite_iff.mp hc
  have hequal := looselyEquals_iff_of_rational? hp hq
  refine ⟨⟨p, q, hp, hq, compare?_of_rational? hp hq, hequal⟩, ?_⟩
  rw [hequal, atMost_iff_of_rational? hp hq, atMost_iff_of_rational? hq hp, atMost_iff_of_rational? hq hr,
    atMost_iff_of_rational? hp hr]
  exact ⟨le_total p q, le_antisymm, le_trans⟩

theorem neighbours_ordered_exactly :
    let odd := integer 9007199254740993
    let even := number ⟨0x4340000000000000⟩
    let middle := decimal ⟨90071992547409925, 1⟩
    (∃ p q, odd.rational? = some p ∧ even.rational? = some q ∧ odd.compare? even = some (cmp p q) ∧
        (odd.looselyEquals even = true ↔ p = q)) ∧
      (odd.AtMost even ∨ even.AtMost odd) ∧ (odd.AtMost even → even.AtMost odd → odd.looselyEquals even = true) ∧
      (odd.AtMost even → even.AtMost middle → odd.AtMost middle) :=
  numbers_ordered_exactly (by decide) (by decide) (by decide)

example : (number ⟨1⟩).compare? (decimal ⟨5, 324⟩) = some .lt := by decide +kernel

example : (number ⟨0x8000000000000000⟩).looselyEquals (integer 0) = true := by decide

end Value

end ObjectStore
