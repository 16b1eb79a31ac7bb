import ObjectStore.Proofs.Number.Rational
import ObjectStore.Proofs.Value.Scalars

/-!
# The laws of equality

Both equalities of values go through arrays and objects in the same way and differ in the scalars alone, so each law holds of them as it holds of their scalars. Only one direction of the comparison of objects is tested: every field of the one has an equal field in the other, and both have as many fields. Where names are distinct this determines the other direction.
-/

namespace ObjectStore

namespace Value

/-! ### Distinct names -/

def hasDistinctNames : Value → Bool
  | object fields => decide (OrderedMap.keys fields).Nodup
  | _ => true

/-- Whether the names of every object inside a value are distinct. -/
def namesDistinct (value : Value) : Bool := everywhere hasDistinctNames value

theorem namesDistinct_array_iff {items : List Value} :
    namesDistinct (.array items) = true ↔ ∀ item ∈ items, namesDistinct item = true :=
  everywhere_array_iff.trans (and_iff_right rfl)

theorem namesDistinct_object_iff {fields : List (String × Value)} :
    namesDistinct (.object fields) = true ↔ OrderedMap.Distinct fields ∧ ∀ entry ∈ fields, namesDistinct entry.2 = true := by
  rw [namesDistinct, everywhere_object_iff, hasDistinctNames, decide_eq_true_iff]
  rfl

theorem hasDistinctNames_of_isWellBuilt {value : Value} (h : value.isWellBuilt = true) : value.hasDistinctNames = true := by
  cases value with
  | object fields => exact h
  | _ => rfl

theorem namesDistinct_of_wellFormed {value : Value} (h : value.wellFormed = true) : value.namesDistinct = true :=
  everywhere_iff.mpr fun inner hinner => hasDistinctNames_of_isWellBuilt (everywhere_iff.mp h inner hinner)

/-! ### Equal arrays and equal objects -/

/-- An equality that holds of scalars only. -/
structure OfScalars (scalar : Value → Value → Bool) : Prop where
  left : ∀ {a b : Value}, scalar a b = true → a.isScalar = true
  right : ∀ {a b : Value}, scalar a b = true → b.isScalar = true

theorem ofScalars_sameScalar : OfScalars sameScalar where
  left {a b} h := by
    cases a with
    | array | object => cases h
    | _ => rfl
  right {a b} h := by
    cases b with
    | array | object => cases a <;> cases h
    | _ => rfl

theorem ofScalars_looseScalar : OfScalars looseScalar where
  left {a b} h := by
    cases a with
    | array | object => cases h
    | _ => rfl
  right {a b} h := by
    cases b with
    | array | object => cases a <;> cases h
    | _ => rfl

theorem eqBy_of_isScalar {scalar : Value → Value → Bool} {a b : Value} (h : a.isScalar = true) : eqBy scalar a b = scalar a b := by
  cases a with
  | array | object => cases h
  | _ => rfl

theorem itemsEqBy_iff {scalar : Value → Value → Bool} {items others : List Value} :
    itemsEqBy scalar items others = true ↔ List.Forall₂ (fun item other => eqBy scalar item other = true) items others := by
  induction items generalizing others with
  | nil => cases others <;> simp [itemsEqBy]
  | cons item items ih =>
    cases others with
    | nil => simp [itemsEqBy]
    | cons other others => rw [itemsEqBy, Bool.and_eq_true, List.forall₂_cons, ih]

section Laws

variable {scalar : Value → Value → Bool} (hscalar : OfScalars scalar)

include hscalar

theorem eqBy_array_iff {items : List Value} {b : Value} :
    eqBy scalar (.array items) b = true ↔
      ∃ others, b = .array others ∧ List.Forall₂ (fun item other => eqBy scalar item other = true) items others := by
  cases b with
  | array others => simp only [eqBy, itemsEqBy_iff, array.injEq, exists_eq_left']
  | _ =>
    constructor
    · intro h
      cases hscalar.left h
    · rintro ⟨others, hothers, -⟩
      cases hothers

theorem eqBy_object_iff {fields : List (String × Value)} {b : Value} :
    eqBy scalar (.object fields) b = true ↔
      ∃ others, b = .object others ∧ fields.length = others.length ∧
        ∀ entry ∈ fields, ∃ other, OrderedMap.get? others entry.1 = some other ∧ eqBy scalar entry.2 other = true := by
  cases b with
  | object others => simp only [eqBy, Bool.and_eq_true, beq_iff_eq, fieldsEqBy_iff, object.injEq, exists_eq_left']
  | _ =>
    constructor
    · intro h
      cases hscalar.left h
    · rintro ⟨others, hothers, -⟩
      cases hothers

theorem isScalar_of_eqBy {a b : Value} (ha : a.isScalar = true) (h : eqBy scalar a b = true) : b.isScalar = true :=
  hscalar.right (eqBy_of_isScalar ha ▸ h)

/-- An equality of scalars that holds of each scalar and itself does so at every depth. -/
theorem eqBy_self {value : Value} (hdistinct : value.namesDistinct = true)
    (hself : ∀ inner, Within inner value → inner.isScalar = true → scalar inner inner = true) : eqBy scalar value value = true := by
  induction value using nestedInduction with
  | scalar value hvalue =>
    rw [eqBy_of_isScalar hvalue]
    exact hself value (.self value) hvalue
  | array items ih =>
    have hitems := namesDistinct_array_iff.mp hdistinct
    exact (eqBy_array_iff hscalar).mpr ⟨items, rfl, List.forall₂_same.mpr fun item hitem =>
      ih item hitem (hitems item hitem) fun inner hinner => hself inner (.item hitem hinner)⟩
  | object fields ih =>
    obtain ⟨hnames, hfields⟩ := namesDistinct_object_iff.mp hdistinct
    exact (eqBy_object_iff hscalar).mpr ⟨fields, rfl, rfl, fun entry hentry =>
      ⟨entry.2, OrderedMap.get?_of_mem hnames hentry,
        ih entry hentry (hfields entry hentry) fun inner hinner => hself inner (.field hentry hinner)⟩⟩

/-- Equality is symmetric where names are distinct: of two objects of one size, either has equal fields for all of the other. -/
theorem eqBy_symm (hsymm : ∀ a b, scalar a b = true → scalar b a = true) {a b : Value} (hdistinct : a.namesDistinct = true)
    (h : eqBy scalar a b = true) : eqBy scalar b a = true := by
  induction a using nestedInduction generalizing b with
  | scalar a ha =>
    rw [eqBy_of_isScalar (isScalar_of_eqBy hscalar ha h)]
    rw [eqBy_of_isScalar ha] at h
    exact hsymm a b h
  | array items ih =>
    obtain ⟨others, rfl, hitems⟩ := (eqBy_array_iff hscalar).mp h
    have hinner := namesDistinct_array_iff.mp hdistinct
    have hmem := (List.forall₂_and_left items others).mpr ⟨fun item hitem => hitem, hitems⟩
    refine (eqBy_array_iff hscalar).mpr ⟨items, rfl, List.Forall₂.flip (hmem.imp ?_)⟩
    rintro item other ⟨hitem, hequal⟩
    exact ih item hitem (hinner item hitem) hequal
  | object fields ih =>
    obtain ⟨others, rfl, hlength, hfields⟩ := (eqBy_object_iff hscalar).mp h
    obtain ⟨hnames, hinner⟩ := namesDistinct_object_iff.mp hdistinct
    refine (eqBy_object_iff hscalar).mpr ⟨fields, rfl, hlength.symm, ?_⟩
    refine OrderedMap.matched_of_matched hnames hlength (fun field other => eqBy scalar other field = true) fun entry hentry => ?_
    obtain ⟨other, hother, hequal⟩ := hfields entry hentry
    exact ⟨other, hother, ih entry hentry (hinner entry hentry) hequal⟩

theorem eqBy_comm (hsymm : ∀ a b, scalar a b = true → scalar b a = true) {a b : Value} (ha : a.namesDistinct = true)
    (hb : b.namesDistinct = true) : eqBy scalar b a = eqBy scalar a b :=
  Bool.eq_iff_iff.mpr ⟨eqBy_symm hscalar hsymm hb, eqBy_symm hscalar hsymm ha⟩

theorem eqBy_trans (htrans : ∀ a b c, scalar a b = true → scalar b c = true → scalar a c = true) {a b c : Value}
    (hab : eqBy scalar a b = true) (hbc : eqBy scalar b c = true) : eqBy scalar a c = true := by
  induction a using nestedInduction generalizing b c with
  | scalar a ha =>
    have hb := isScalar_of_eqBy hscalar ha hab
    rw [eqBy_of_isScalar ha] at hab ⊢
    rw [eqBy_of_isScalar hb] at hbc
    exact htrans a b c hab hbc
  | array items ih =>
    obtain ⟨others, rfl, hitems⟩ := (eqBy_array_iff hscalar).mp hab
    obtain ⟨thirds, rfl, hothers⟩ := (eqBy_array_iff hscalar).mp hbc
    refine (eqBy_array_iff hscalar).mpr ⟨thirds, rfl, ?_⟩
    clear hab hbc
    induction hitems generalizing thirds with
    | nil =>
      cases hothers
      exact .nil
    | cons hfirst _ ihrest =>
      cases hothers with
      | cons hsecond hrest =>
        exact .cons (ih _ List.mem_cons_self hfirst hsecond) (ihrest (fun item hitem => ih item (List.mem_cons_of_mem _ hitem)) _ hrest)
  | object fields ih =>
    obtain ⟨others, rfl, hlength, hfields⟩ := (eqBy_object_iff hscalar).mp hab
    obtain ⟨thirds, rfl, hlength', hothers⟩ := (eqBy_object_iff hscalar).mp hbc
    refine (eqBy_object_iff hscalar).mpr ⟨thirds, rfl, hlength.trans hlength', fun entry hentry => ?_⟩
    obtain ⟨other, hother, hfirst⟩ := hfields entry hentry
    obtain ⟨third, hthird, hsecond⟩ := hothers _ (OrderedMap.mem_of_get? hother)
    exact ⟨third, hthird, ih entry hentry hfirst hsecond⟩

/-- Values that are equal are so by every equality whose scalars agree to as much. -/
theorem eqBy_imp {coarser : Value → Value → Bool} (hcoarser : OfScalars coarser) {a b : Value}
    (himp : ∀ inner, Within inner a → ∀ other, scalar inner other = true → coarser inner other = true)
    (h : eqBy scalar a b = true) : eqBy coarser a b = true := by
  induction a using nestedInduction generalizing b with
  | scalar a ha =>
    rw [eqBy_of_isScalar ha] at h ⊢
    exact himp a (.self a) b h
  | array items ih =>
    obtain ⟨others, rfl, hitems⟩ := (eqBy_array_iff hscalar).mp h
    have hmem := (List.forall₂_and_left items others).mpr ⟨fun item hitem => hitem, hitems⟩
    refine (eqBy_array_iff hcoarser).mpr ⟨others, rfl, hmem.imp ?_⟩
    rintro item other ⟨hitem, hequal⟩
    exact ih item hitem (fun inner hinner => himp inner (.item hitem hinner)) hequal
  | object fields ih =>
    obtain ⟨others, rfl, hlength, hfields⟩ := (eqBy_object_iff hscalar).mp h
    refine (eqBy_object_iff hcoarser).mpr ⟨others, rfl, hlength, fun entry hentry => ?_⟩
    obtain ⟨other, hother, hequal⟩ := hfields entry hentry
    exact ⟨other, hother, ih entry hentry (fun inner hinner => himp inner (.field hentry hinner)) hequal⟩

end Laws

/-! ### Structural equality -/

theorem sameScalar_self {value : Value} (h : value.isScalar = true) : value.sameScalar value = true := by
  cases value with
  | array | object => cases h
  | decimal d => exact Decimal.same_iff_toRat_eq.mpr rfl
  | _ => simp [sameScalar]

theorem sameScalar_decimal_iff {d e : Decimal} : (decimal d).sameScalar (decimal e) = true ↔ d.toRat = e.toRat :=
  Decimal.same_iff_toRat_eq

theorem sameScalar_number_iff {x y : Double} :
    (number x).sameScalar (number y) = true ↔ x = y ∨ x.isNaN = true ∧ y.isNaN = true := by
  have hbits : (number x).sameScalar (number y) = true ↔ x.canonical = y.canonical := by
    rw [sameScalar, beq_iff_eq, Double.canonical, Double.canonical, Double.mk.injEq]
  rw [hbits]
  constructor
  · intro h
    cases hnan : x.isNaN with
    | true => exact .inr ⟨rfl, by rw [← y.isNaN_canonical, ← h, x.isNaN_canonical, hnan]⟩
    | false =>
      have hother : y.isNaN = false := by
        rw [← y.isNaN_canonical, ← h, x.isNaN_canonical, hnan]
      rw [Double.canonical_of_not_isNaN hnan, Double.canonical_of_not_isNaN hother] at h
      exact .inl h
  · rintro (rfl | ⟨hx, hy⟩)
    · rfl
    · rw [Double.canonical_of_isNaN hx, Double.canonical_of_isNaN hy]

/-- Scalars of one kind are the same when they are one scalar, two NaNs, or decimals of one number. -/
theorem sameScalar_cases {a b : Value} (h : a.sameScalar b = true) :
    a = b ∨ (∃ x y, a = number x ∧ b = number y ∧ x.isNaN = true ∧ y.isNaN = true) ∨
      ∃ d e, a = decimal d ∧ b = decimal e ∧ d.toRat = e.toRat := by
  cases hnumeric : a.isNumeric && b.isNumeric with
  | false => exact .inl (eq_of_sameScalar hnumeric h)
  | true =>
    cases a with
    | integer n =>
      cases b with
      | integer m => exact .inl (congrArg integer (eq_of_beq h))
      | _ => cases h
    | number x =>
      cases b with
      | number y =>
        rcases sameScalar_number_iff.mp h with rfl | ⟨hx, hy⟩
        · exact .inl rfl
        · exact .inr (.inl ⟨x, y, rfl, rfl, hx, hy⟩)
      | _ => cases h
    | decimal d =>
      cases b with
      | decimal e => exact .inr (.inr ⟨d, e, rfl, rfl, sameScalar_decimal_iff.mp h⟩)
      | _ => cases h
    | _ => cases hnumeric

theorem sameScalar_symm (a b : Value) (h : a.sameScalar b = true) : b.sameScalar a = true := by
  rcases sameScalar_cases h with rfl | ⟨x, y, rfl, rfl, hx, hy⟩ | ⟨d, e, rfl, rfl, hrat⟩
  · exact h
  · exact sameScalar_number_iff.mpr (.inr ⟨hy, hx⟩)
  · exact sameScalar_decimal_iff.mpr hrat.symm

theorem sameScalar_trans (a b c : Value) (hab : a.sameScalar b = true) (hbc : b.sameScalar c = true) : a.sameScalar c = true := by
  rcases sameScalar_cases hab with rfl | ⟨x, y, rfl, rfl, hx, hy⟩ | ⟨d, e, rfl, rfl, hrat⟩
  · exact hbc
  · rcases sameScalar_cases hbc with rfl | ⟨_, z, -, rfl, -, hz⟩ | ⟨_, _, ⟨⟩, -, -⟩
    · exact sameScalar_number_iff.mpr (.inr ⟨hx, hy⟩)
    · exact sameScalar_number_iff.mpr (.inr ⟨hx, hz⟩)
  · rcases sameScalar_cases hbc with rfl | ⟨_, _, ⟨⟩, -, -, -⟩ | ⟨_, f, ⟨⟩, rfl, hrat'⟩
    · exact sameScalar_decimal_iff.mpr hrat
    · exact sameScalar_decimal_iff.mpr (hrat.trans hrat')

theorem same_self {value : Value} (h : value.namesDistinct = true) : value.same value = true :=
  eqBy_self ofScalars_sameScalar h fun _ _ hscalar => sameScalar_self hscalar

theorem same_comm {a b : Value} (ha : a.namesDistinct = true) (hb : b.namesDistinct = true) : b.same a = a.same b :=
  eqBy_comm ofScalars_sameScalar sameScalar_symm ha hb

theorem same_trans {a b c : Value} (hab : a.same b = true) (hbc : b.same c = true) : a.same c = true :=
  eqBy_trans ofScalars_sameScalar sameScalar_trans hab hbc

end Value

end ObjectStore
