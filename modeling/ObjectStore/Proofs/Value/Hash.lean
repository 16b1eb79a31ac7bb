import ObjectStore.Proofs.Number.Rational
import ObjectStore.Proofs.Value.Equality
import ObjectStore.Value.Hash

/-!
# Values as keys of a hash map

Structural equality is an equivalence, and it forgets three things at every depth: the order of the fields of an object, the bits of a NaN and the scale of a decimal. What a value feeds to a hasher forgets the same three. The digests of the fields of an object are added up, so their order makes no difference, and a decimal feeds its normal form, which is one and the same for all decimals of one number.
-/

namespace ObjectStore

/-! ### The normal form of a decimal -/

namespace Decimal

theorem toRat_go (limit : Nat) (d : Decimal) : (normalized.go limit d).toRat = d.toRat := by
  induction limit generalizing d with
  | zero => rfl
  | succ limit ih =>
    rw [normalized.go]
    split
    · next hzero =>
      obtain ⟨rest, hrest⟩ := Int.dvd_of_emod_eq_zero hzero
      have hpower : (10 : ℚ) ^ (-(d.scale - 1)) = 10 * 10 ^ (-d.scale) := by
        rw [← zpow_one_add₀ (by decide)]
        congr 1
        omega
      rw [ih, toRat, toRat, hpower, hrest, Int.mul_ediv_cancel_left _ (by decide)]
      push_cast
      ring
    · rfl

theorem digits_go_emod {limit : Nat} {d : Decimal} (hne : d.digits ≠ 0) (hlimit : d.digits.natAbs < tenTo limit) :
    (normalized.go limit d).digits % 10 ≠ 0 := by
  induction limit generalizing d with
  | zero =>
    have hone : tenTo 0 = 1 := rfl
    omega
  | succ limit ih =>
    rw [normalized.go]
    split
    · next hzero =>
      rw [tenTo_succ] at hlimit
      exact ih (by dsimp only; omega) (by dsimp only; omega)
    · next hlast => exact hlast

theorem toRat_normalized (d : Decimal) : d.normalized.toRat = d.toRat := by
  rw [normalized]
  split
  · next hzero => simp [toRat, hzero]
  · exact toRat_go _ d

theorem toRat_eq_zero_iff {d : Decimal} : d.toRat = 0 ↔ d.digits = 0 := by
  rw [toRat, mul_eq_zero, Int.cast_eq_zero, or_iff_left (zpow_ne_zero _ (by decide))]

/-- Decimals of one number whose digits end in no zero have one scale, and so they are one decimal. -/
theorem eq_of_toRat_eq {a b : Decimal} (ha : a.digits % 10 ≠ 0) (hb : b.digits % 10 ≠ 0) (h : a.toRat = b.toRat) : a = b := by
  wlog hscale : a.scale ≤ b.scale generalizing a b
  · exact (this hb ha h.symm (Int.le_of_not_le hscale)).symm
  have hdigits : a.digitsAt b.scale = b.digits := by
    rw [(same_iff hscale (Int.le_refl _)).mp (same_iff_toRat_eq.mpr h), digitsAt, Int.sub_self]
    exact Int.mul_one _
  rw [digitsAt] at hdigits
  obtain hzero | ⟨places, hplaces⟩ : (b.scale - a.scale).toNat = 0 ∨ ∃ places, (b.scale - a.scale).toNat = places + 1 :=
    Nat.eq_zero_or_eq_succ_pred _ |>.imp_right fun hsucc => ⟨_, hsucc⟩
  · rw [hzero] at hdigits
    obtain ⟨digits, scale⟩ := a
    obtain ⟨digits', scale'⟩ := b
    simp only [mk.injEq]
    refine ⟨(Int.mul_one _).symm.trans hdigits, ?_⟩
    dsimp only at hzero hscale
    omega
  · rw [hplaces, tenTo_succ, Int.natCast_mul, ← Int.mul_assoc, Int.mul_right_comm] at hdigits
    exact absurd (Int.emod_eq_zero_of_dvd ⟨_, (hdigits.symm.trans (Int.mul_comm _ _))⟩) hb

theorem natAbs_lt_tenTo_width (d : Decimal) : d.digits.natAbs < tenTo d.width :=
  (Nat.length_toDigits_le_iff (by decide) (List.length_pos_iff.mpr Nat.toDigits_ne_nil)).mp (Nat.le_refl _)

theorem normalized_eq_of_toRat_eq {a b : Decimal} (h : a.toRat = b.toRat) : a.normalized = b.normalized := by
  by_cases hzero : a.digits = 0
  · have hother : b.digits = 0 := toRat_eq_zero_iff.mp (h ▸ toRat_eq_zero_iff.mpr hzero)
    rw [normalized, normalized, if_pos hzero, if_pos hother]
  · have hother : b.digits ≠ 0 := fun hdigits => hzero (toRat_eq_zero_iff.mp (h ▸ toRat_eq_zero_iff.mpr hdigits))
    have hrat : a.normalized.toRat = b.normalized.toRat := by
      rw [toRat_normalized, toRat_normalized, h]
    rw [normalized, normalized, if_neg hzero, if_neg hother] at hrat ⊢
    exact eq_of_toRat_eq (digits_go_emod hzero a.natAbs_lt_tenTo_width) (digits_go_emod hother b.natAbs_lt_tenTo_width) hrat

end Decimal

namespace Value

/-! ### What equality forgets -/

/-- Values that differ only in what equality forgets, at any depth and any number of times. -/
inductive Alike : Value → Value → Prop where
  | refl (value : Value) : Alike value value
  | trans {a b c : Value} (hab : Alike a b) (hbc : Alike b c) : Alike a c
  | nan {x y : Double} (hx : x.isNaN = true) (hy : y.isNaN = true) : Alike (.number x) (.number y)
  | decimal {d e : Decimal} (hrat : d.toRat = e.toRat) : Alike (.decimal d) (.decimal e)
  | reorder {fields others : List (String × Value)} (hperm : fields.Perm others) : Alike (.object fields) (.object others)
  | item (before after : List Value) {a b : Value} (h : Alike a b) :
      Alike (.array (before ++ a :: after)) (.array (before ++ b :: after))
  | field (before after : List (String × Value)) (name : String) {a b : Value} (h : Alike a b) :
      Alike (.object (before ++ (name, a) :: after)) (.object (before ++ (name, b) :: after))

namespace Alike

theorem items {items others : List Value} (h : List.Forall₂ Alike items others) (before : List Value) :
    Alike (.array (before ++ items)) (.array (before ++ others)) := by
  induction h generalizing before with
  | nil => exact .refl _
  | @cons item other items others hfirst _ ih =>
    refine (Alike.item before items hfirst).trans ?_
    rw [List.append_cons, List.append_cons _ _ others]
    exact ih _

theorem fields {fields others : List (String × Value)}
    (h : List.Forall₂ (fun field other => field.1 = other.1 ∧ Alike field.2 other.2) fields others) (before : List (String × Value)) :
    Alike (.object (before ++ fields)) (.object (before ++ others)) := by
  induction h generalizing before with
  | nil => exact .refl _
  | @cons field other fields others hfirst _ ih =>
    obtain ⟨name, a⟩ := field
    obtain ⟨_, b⟩ := other
    obtain ⟨rfl, hvalue⟩ := hfirst
    refine (Alike.field before fields name hvalue).trans ?_
    rw [List.append_cons, List.append_cons _ _ others]
    exact ih _

theorem namesDistinct {a b : Value} (h : Alike a b) (hdistinct : a.namesDistinct = true) : b.namesDistinct = true := by
  induction h with
  | refl => exact hdistinct
  | trans _ _ ihab ihbc => exact ihbc (ihab hdistinct)
  | nan | decimal => rfl
  | reorder hperm =>
    obtain ⟨hnames, hfields⟩ := namesDistinct_object_iff.mp hdistinct
    exact namesDistinct_object_iff.mpr
      ⟨hnames.of_perm hperm.symm, fun entry hentry => hfields entry (hperm.mem_iff.mpr hentry)⟩
  | item before after _ ih =>
    simp only [namesDistinct_array_iff, List.forall_mem_append, List.forall_mem_cons] at hdistinct ⊢
    exact ⟨hdistinct.1, ih hdistinct.2.1, hdistinct.2.2⟩
  | field before after name _ ih =>
    simp only [namesDistinct_object_iff, OrderedMap.Distinct, OrderedMap.keys, List.map_append, List.map_cons, List.forall_mem_append,
      List.forall_mem_cons] at hdistinct ⊢
    exact ⟨hdistinct.1, hdistinct.2.1, ih hdistinct.2.2.1, hdistinct.2.2.2⟩

theorem same {a b : Value} (h : Alike a b) (hdistinct : a.namesDistinct = true) : a.same b = true := by
  induction h with
  | refl => exact same_self hdistinct
  | trans hab _ ihab ihbc => exact same_trans (ihab hdistinct) (ihbc (hab.namesDistinct hdistinct))
  | nan hx hy => exact sameScalar_number_iff.mpr (.inr ⟨hx, hy⟩)
  | decimal hrat => exact sameScalar_decimal_iff.mpr hrat
  | @reorder fields others hperm =>
    obtain ⟨hnames, hfields⟩ := namesDistinct_object_iff.mp hdistinct
    refine (eqBy_object_iff ofScalars_sameScalar).mpr ⟨others, rfl, hperm.length_eq, fun entry hentry => ?_⟩
    exact ⟨entry.2, OrderedMap.get?_of_mem (hnames.of_perm hperm.symm) (hperm.mem_iff.mp hentry),
      same_self (hfields entry hentry)⟩
  | item before after h ih =>
    simp only [namesDistinct_array_iff, List.forall_mem_append, List.forall_mem_cons] at hdistinct
    obtain ⟨hbefore, hitem, hafter⟩ := hdistinct
    refine (eqBy_array_iff ofScalars_sameScalar).mpr ⟨_, rfl, ?_⟩
    refine List.rel_append (List.forall₂_same.mpr fun inner hinner => same_self (hbefore inner hinner)) (.cons (ih hitem) ?_)
    exact List.forall₂_same.mpr fun inner hinner => same_self (hafter inner hinner)
  | @field before after name a b h ih =>
    obtain ⟨hnames, -⟩ := namesDistinct_object_iff.mp ((Alike.field before after name h).namesDistinct hdistinct)
    have hfields := (namesDistinct_object_iff.mp hdistinct).2
    simp only [List.forall_mem_append, List.forall_mem_cons] at hfields
    obtain ⟨hbefore, hfield, hafter⟩ := hfields
    refine (eqBy_object_iff ofScalars_sameScalar).mpr ⟨_, rfl, by simp, fun entry hentry => ?_⟩
    rcases List.mem_append.mp hentry with hmem | hmem
    · exact ⟨entry.2, OrderedMap.get?_of_mem hnames (List.mem_append_left _ hmem), same_self (hbefore entry hmem)⟩
    rcases List.mem_cons.mp hmem with rfl | hmem
    · exact ⟨b, OrderedMap.get?_of_mem hnames (List.mem_append_right _ List.mem_cons_self), ih hfield⟩
    · exact ⟨entry.2, OrderedMap.get?_of_mem hnames (List.mem_append_right _ (List.mem_cons_of_mem _ hmem)),
        same_self (hafter entry hmem)⟩

end Alike

theorem alike_of_same {a b : Value} (hdistinct : a.namesDistinct = true) (h : a.same b = true) : Alike a b := by
  induction a using nestedInduction generalizing b with
  | scalar a ha =>
    rw [same, eqBy_of_isScalar ha] at h
    rcases sameScalar_cases h with rfl | ⟨x, y, rfl, rfl, hx, hy⟩ | ⟨d, e, rfl, rfl, hrat⟩
    · exact .refl _
    · exact .nan hx hy
    · exact .decimal hrat
  | array items ih =>
    obtain ⟨others, rfl, hitems⟩ := (eqBy_array_iff ofScalars_sameScalar).mp h
    have hinner := namesDistinct_array_iff.mp hdistinct
    have hmem := (List.forall₂_and_left items others).mpr ⟨fun item hitem => hitem, hitems⟩
    exact Alike.items (hmem.imp fun item other hsame => ih item hsame.1 (hinner item hsame.1) hsame.2) []
  | object fields ih =>
    obtain ⟨others, rfl, hlength, hfields⟩ := (eqBy_object_iff ofScalars_sameScalar).mp h
    obtain ⟨hnames, hinner⟩ := namesDistinct_object_iff.mp hdistinct
    have hmatched : ∀ entry ∈ fields, ∃ other, OrderedMap.get? others entry.1 = some other ∧ Alike entry.2 other := by
      intro entry hentry
      obtain ⟨other, hother, hsame⟩ := hfields entry hentry
      exact ⟨other, hother, ih entry hentry (hinner entry hentry) hsame⟩
    obtain ⟨arranged, hperm, harranged⟩ := OrderedMap.exists_arranged hnames hlength Alike hmatched
    exact (Alike.fields harranged []).trans (.reorder hperm)

theorem same_iff_alike {a b : Value} (hdistinct : a.namesDistinct = true) : a.same b = true ↔ Alike a b :=
  ⟨alike_of_same hdistinct, fun h => h.same hdistinct⟩

/-! ### What is fed to a hasher -/

section Feed

variable (digest : Digest)

theorem itemsFeed_append (items others : List Value) :
    itemsFeed digest (items ++ others) = itemsFeed digest items ++ itemsFeed digest others := by
  induction items with
  | nil => rfl
  | cons item items ih => rw [List.cons_append, itemsFeed, itemsFeed, ih, List.append_assoc]

theorem fieldsDigest_eq_sum (fields : List (String × Value)) :
    fieldsDigest digest fields = (fields.map fun entry => digest (.text entry.1 :: feed digest entry.2)).sum := by
  induction fields with
  | nil => rfl
  | cons entry fields ih => rw [fieldsDigest, ih, List.map_cons, List.sum_cons]

/-- Values that differ in nothing but what equality forgets feed alike. -/
theorem Alike.feed_eq {a b : Value} (h : Alike a b) : feed digest a = feed digest b := by
  induction h with
  | refl => rfl
  | trans _ _ ihab ihbc => exact ihab.trans ihbc
  | @nan x y hx hy =>
    have hbits : x.canonicalBits = y.canonicalBits :=
      congrArg Double.bits ((Double.canonical_of_isNaN hx).trans (Double.canonical_of_isNaN hy).symm)
    simp only [feed, scalarFeed, kind, hbits]
  | decimal hrat => simp only [feed, scalarFeed, kind, Decimal.normalized_eq_of_toRat_eq hrat]
  | reorder hperm =>
    have hsum := (hperm.map fun entry => digest (.text entry.1 :: feed digest entry.2)).sum_eq
    rw [feed, feed, fieldsDigest_eq_sum, fieldsDigest_eq_sum, hperm.length_eq, hsum]
  | item before after _ ih =>
    simp only [feed, itemsFeed_append, itemsFeed, ih, List.length_append, List.length_cons]
  | field before after name _ ih =>
    simp only [feed, fieldsDigest_eq_sum, List.map_append, List.map_cons, ih, List.length_append, List.length_cons]

end Feed

/-- Values are lawful keys of a hash map. Structural equality is an equivalence, equal are exactly those values that differ in the order of fields, the bits of NaNs and the scales of decimals alone, at any depth, and equal values feed every hasher the same data. -/
theorem lawful_key {a b c : Value} (ha : a.namesDistinct = true) (hb : b.namesDistinct = true) :
    a.same a = true ∧ b.same a = a.same b ∧ (a.same b = true → b.same c = true → a.same c = true) ∧
      (a.same b = true ↔ Alike a b) ∧
      (a.same b = true → ∀ digest, feed digest a = feed digest b ∧ hashWith digest a = hashWith digest b) := by
  refine ⟨same_self ha, same_comm ha hb, same_trans, same_iff_alike ha, fun h digest => ?_⟩
  have hfeed := (alike_of_same ha h).feed_eq digest
  exact ⟨hfeed, congrArg digest hfeed⟩

/-- Two objects with their fields in another order, outside and inside, with two NaNs and with two decimals of one number. -/
theorem disordered_lawful_key :
    let nan := number ⟨0x7ff8000000000000⟩
    let other := number ⟨0xfff0000000000001⟩
    let a := object [("n", array [nan, null]), ("m", object [("x", decimal ⟨150, 2⟩), ("y", string "z")])]
    let b := object [("m", object [("y", string "z"), ("x", decimal ⟨15, 1⟩)]), ("n", array [other, null])]
    a.namesDistinct = true ∧ b.namesDistinct = true ∧ a.same b = true ∧
      a.same a = true ∧ b.same a = a.same b ∧ (a.same b = true → b.same a = true → a.same a = true) ∧
      (a.same b = true ↔ Alike a b) ∧
      (a.same b = true → ∀ digest, feed digest a = feed digest b ∧ hashWith digest a = hashWith digest b) := by
  intro nan other a b
  have ha : a.namesDistinct = true := by
    decide
  have hb : b.namesDistinct = true := by
    decide
  exact ⟨ha, hb, by decide +kernel, lawful_key ha hb⟩

end Value

end ObjectStore
