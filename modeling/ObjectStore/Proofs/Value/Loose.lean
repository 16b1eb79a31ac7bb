import ObjectStore.Proofs.Value.Comparison
import ObjectStore.Proofs.Value.Equality

/-!
# Loose equality beside structural equality

Loose equality forgets the numeric kind, and so it holds of more values than structural equality, with one exception. A NaN has no place in the order of numbers, and so it is not loosely equal to anything, not even to itself, while structurally all NaNs are equal. Values that have none inside are loosely equal whenever they are structurally equal.
-/

namespace ObjectStore

theorem Decimal.compare_self (d : Decimal) : d.compare d = .eq := by
  rw [compare_eq (Int.le_refl d.scale) (Int.le_refl d.scale), Int.compare_eq_eq]

theorem Double.compare?_self {x : Double} (h : x.isNaN = false) : x.compare? x = some .eq := by
  rw [compare?, h, Bool.false_or, if_neg Bool.false_ne_true, Int.compare_eq_eq.mpr rfl]

namespace Value

def isNaN : Value → Bool
  | number x => x.isNaN
  | _ => false

/-- Whether there is no NaN in a value at any depth. -/
def lacksNaN (value : Value) : Bool := everywhere (fun inner => !inner.isNaN) value

theorem not_isNaN_of_lacksNaN {value inner : Value} (h : value.lacksNaN = true) (hinner : Within inner value) :
    inner.isNaN = false := by
  have htest := everywhere_iff.mp h inner hinner
  exact Bool.not_eq_eq_eq_not.mp htest

/-! ### Scalars -/

theorem looseScalar_self {value : Value} (hscalar : value.isScalar = true) (hnan : value.isNaN = false) :
    looseScalar value value = true := by
  cases value with
  | integer n => simp [looseScalar, isNumeric, compare?]
  | number x => simp [looseScalar, isNumeric, compare?, Double.compare?_self hnan]
  | decimal d => simp [looseScalar, isNumeric, compare?, compareNumbers?, toDecimal?, Decimal.compare_self]
  | array items => cases hscalar
  | object fields => cases hscalar
  | _ => simp [looseScalar, isNumeric, sameScalar]

theorem looseScalar_of_rational? {a b : Value} {p : ℚ} (ha : a.rational? = some p) (hb : b.rational? = some p) :
    a.looseScalar b = true := by
  have hnumeric {value : Value} (h : value.rational? = some p) : value.isNumeric = true := by
    cases value <;> first | rfl | cases h
  rw [looseScalar, hnumeric ha, hnumeric hb, Bool.and_true, if_pos rfl, compare?_of_rational? ha hb, cmp_self_eq_eq]
  rfl

/-- Scalars that are the same are loosely equal, but for NaNs. -/
theorem looseScalar_of_sameScalar {a b : Value} (hnan : a.isNaN = false) (h : a.sameScalar b = true) : a.looseScalar b = true := by
  rcases sameScalar_cases h with rfl | ⟨x, y, rfl, rfl, hx, -⟩ | ⟨d, e, rfl, rfl, hrat⟩
  · exact looseScalar_self (ofScalars_sameScalar.left h) hnan
  · cases hx.symm.trans hnan
  · exact looseScalar_of_rational? rfl (congrArg some hrat.symm)

theorem looseScalar_symm (a b : Value) (h : a.looseScalar b = true) : b.looseScalar a = true := by
  rw [looseScalar] at h ⊢
  rw [Bool.and_comm]
  split
  · next hnumeric =>
    rw [if_pos hnumeric, beq_iff_eq] at h
    rw [compare?_swap, h]
    rfl
  · next hnumeric =>
    rw [if_neg hnumeric] at h
    exact sameScalar_symm a b h

/-- A NaN is loosely equal to nothing. -/
theorem not_isNaN_of_looseScalar {a b : Value} (h : a.looseScalar b = true) : a.isNaN = false := by
  cases a with
  | number x =>
    refine Bool.eq_false_iff.mpr fun hnan => ?_
    rw [looseScalar, compare?_of_isNaN hnan] at h
    cases b <;> cases h
  | _ => rfl

/-! ### Values of any depth -/

theorem looselyEquals_of_isScalar {value : Value} (hscalar : value.isScalar = true) (other : Value) :
    value.looselyEquals other = looseScalar value other :=
  eqBy_of_isScalar hscalar

theorem eq_of_looselyEquals_string {value : Value} {text : String}
    (h : looselyEquals (.string text) value = true ∨ value.looselyEquals (.string text) = true) : value = .string text := by
  cases value <;> simp [looselyEquals, eqBy, looseScalar, isNumeric, sameScalar] at h
  next other => rcases h with rfl | rfl <;> rfl

theorem looselyEquals_self {value : Value} (hwell : value.wellFormed = true) (hnan : value.lacksNaN = true) :
    value.looselyEquals value = true :=
  eqBy_self ofScalars_looseScalar (namesDistinct_of_wellFormed hwell) fun _ hinner hscalar =>
    looseScalar_self hscalar (not_isNaN_of_lacksNaN hnan hinner)

theorem looselyEquals_symm {a b : Value} (ha : a.namesDistinct = true) (h : a.looselyEquals b = true) : b.looselyEquals a = true :=
  eqBy_symm ofScalars_looseScalar looseScalar_symm ha h

theorem looselyEquals_comm {a b : Value} (ha : a.namesDistinct = true) (hb : b.namesDistinct = true) :
    b.looselyEquals a = a.looselyEquals b :=
  eqBy_comm ofScalars_looseScalar looseScalar_symm ha hb

theorem lacksNaN_of_looselyEquals {a b : Value} (h : a.looselyEquals b = true) : a.lacksNaN = true := by
  induction a using nestedInduction generalizing b with
  | scalar a ha =>
    rw [looselyEquals_of_isScalar ha] at h
    have htest : (!a.isNaN) = true := by
      rw [not_isNaN_of_looseScalar h, Bool.not_false]
    cases a with
    | array | object => cases ha
    | _ => exact htest
  | array items ih =>
    obtain ⟨others, rfl, hitems⟩ := (eqBy_array_iff ofScalars_looseScalar).mp h
    refine everywhere_array_iff.mpr ⟨rfl, fun item hitem => ?_⟩
    obtain ⟨other, -, hequal⟩ := exists_right_of_forall₂ hitems hitem
    exact ih item hitem hequal
  | object fields ih =>
    obtain ⟨others, rfl, -, hfields⟩ := (eqBy_object_iff ofScalars_looseScalar).mp h
    refine everywhere_object_iff.mpr ⟨rfl, fun entry hentry => ?_⟩
    obtain ⟨other, -, hequal⟩ := hfields entry hentry
    exact ih entry hentry hequal

/-- Of values that are structurally equal, exactly those without NaNs inside are loosely equal. -/
theorem looselyEquals_iff_of_same {a b : Value} (h : a.same b = true) : a.looselyEquals b = true ↔ a.lacksNaN = true := by
  refine ⟨lacksNaN_of_looselyEquals, fun hnan => ?_⟩
  exact eqBy_imp ofScalars_sameScalar ofScalars_looseScalar
    (fun inner hinner other hsame => looseScalar_of_sameScalar (not_isNaN_of_lacksNaN hnan hinner) hsame) h

end Value

end ObjectStore
