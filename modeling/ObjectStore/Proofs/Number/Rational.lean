import Mathlib
import ObjectStore.Proofs.Number.Decimal
import ObjectStore.Proofs.Number.Double
import ObjectStore.Value.Order

/-!
# Numbers as rational numbers

Every decimal and every finite double stands for a rational number, and numbers of all kinds are ordered as their rational numbers are. Doubles of one sign are ordered by their bits because those count, in steps of growing width, up from zero; a double and a decimal are compared through the decimal of the double, which is exactly the same number.
-/

namespace ObjectStore

theorem compare_intCast (m n : Int) : Ord.compare m n = cmp (m : ℚ) (n : ℚ) := by
  rw [← cmp_eq_compare, Int.cast_strictMono.cmp_map_eq]

namespace Decimal

def toRat (d : Decimal) : ℚ := d.digits * 10 ^ (-d.scale)

theorem cast_digitsAt {d : Decimal} {scale : Int} (h : d.scale ≤ scale) : (d.digitsAt scale : ℚ) = d.toRat * 10 ^ scale := by
  have hpower : ((tenTo (scale - d.scale).toNat : Nat) : ℚ) = 10 ^ (-d.scale) * 10 ^ scale := by
    rw [← zpow_add₀ (by decide), neg_add_eq_sub, tenTo]
    lift scale - d.scale to Nat using by omega with places
    norm_cast
  rw [digitsAt, Int.cast_mul, Int.cast_natCast, hpower, toRat, mul_assoc]

theorem compare_eq_cmp (a b : Decimal) : a.compare b = cmp a.toRat b.toRat := by
  rw [compare_eq (Int.le_max_left _ _) (Int.le_max_right _ _), compare_intCast, cast_digitsAt (Int.le_max_left _ _),
    cast_digitsAt (Int.le_max_right _ _), cmp_mul_pos_right (zpow_pos (by decide) _)]

theorem same_iff_toRat_eq {a b : Decimal} : a.same b = true ↔ a.toRat = b.toRat := by
  rw [same, compare_eq_cmp, beq_iff_eq, cmp_eq_eq_iff]

end Decimal

namespace Double

/-! ### The order of finite doubles -/

/-- A magnitude in units of the least positive number. -/
def units (magnitude : Nat) : Nat :=
  if magnitude / 2 ^ 52 = 0 then magnitude
  else (2 ^ 52 + magnitude % 2 ^ 52) * 2 ^ (magnitude / 2 ^ 52 - 1)

theorem units_lt_succ (magnitude : Nat) : units magnitude < units (magnitude + 1) := by
  obtain ⟨field, hfield⟩ : ∃ field, magnitude / 2 ^ 52 = field := ⟨_, rfl⟩
  have hpos (n : Nat) : 0 < 2 ^ n := Nat.pow_pos (by decide)
  by_cases hlast : magnitude % 2 ^ 52 + 1 = 2 ^ 52
  · -- the fraction runs over into the next exponent
    have hnext : (magnitude + 1) / 2 ^ 52 = field + 1 ∧ (magnitude + 1) % 2 ^ 52 = 0 := by
      omega
    rw [units, units, hnext.1, hnext.2, hfield, if_neg (Nat.succ_ne_zero field), Nat.add_sub_cancel, Nat.add_zero]
    cases field with
    | zero =>
      rw [if_pos rfl]
      omega
    | succ below =>
      have hdouble : 2 ^ 52 * 2 ^ (below + 1) = 2 ^ 53 * 2 ^ below := by
        rw [← Nat.pow_add, ← Nat.pow_add, show 52 + (below + 1) = 53 + below by omega]
      rw [if_neg (Nat.succ_ne_zero below), Nat.add_sub_cancel, hdouble]
      exact Nat.mul_lt_mul_of_pos_right (by omega) (hpos below)
  · have hnext : (magnitude + 1) / 2 ^ 52 = field ∧ (magnitude + 1) % 2 ^ 52 = magnitude % 2 ^ 52 + 1 := by
      omega
    rw [units, units, hnext.1, hnext.2, hfield]
    split
    · exact Nat.lt_succ_self magnitude
    · exact Nat.mul_lt_mul_of_pos_right (by omega) (hpos _)

theorem strictMono_units : StrictMono units := strictMono_nat_of_lt_succ units_lt_succ

/-- The signed units of a rank. -/
def unitsOfRank (rank : Int) : Int := if rank < 0 then -units rank.natAbs else units rank.natAbs

theorem strictMono_unitsOfRank : StrictMono unitsOfRank := by
  have hzero : units 0 = 0 := rfl
  intro a b h
  have hpos {n : Nat} (hn : 0 < n) : 0 < units n := strictMono_units hn
  simp only [unitsOfRank]
  split <;> split
  · exact Int.neg_lt_neg (Int.ofNat_lt.mpr (strictMono_units (by omega)))
  · have hunits := hpos (show 0 < a.natAbs by omega)
    omega
  · omega
  · exact Int.ofNat_lt.mpr (strictMono_units (by omega))

/-- The number of a finite double. -/
def toRat (x : Double) : ℚ :=
  match x.view with
  | .finite negative significand exponent => signed negative significand * 2 ^ exponent
  | _ => 0

theorem field_lt {x : Double} (h : x.isFinite = true) : x.magnitude / 2 ^ 52 < 2047 := by
  have hless : x.magnitude < infinityBits := of_decide_eq_true h
  have hbits : infinityBits = 2047 * 2 ^ 52 := rfl
  omega

theorem exists_view_eq_finite {x : Double} (h : x.isFinite = true) :
    ∃ negative significand exponent, x.view = .finite negative significand exponent := by
  have hfield : x.magnitude / twoTo 52 ≠ 2047 := Nat.ne_of_lt (field_lt h)
  simp only [view, if_neg hfield]
  split
  · exact ⟨_, _, _, rfl⟩
  · exact ⟨_, _, _, rfl⟩

theorem unitsOfRank_rank (x : Double) : unitsOfRank x.rank = signed x.negative (units x.magnitude) := by
  have hzero : units 0 = 0 := rfl
  rw [rank, signed, unitsOfRank]
  cases x.negative with
  | false => simp
  | true =>
    simp only [if_true, Int.natAbs_neg, Int.natAbs_natCast]
    split
    · rfl
    · rw [show x.magnitude = 0 by omega, hzero, Int.natCast_zero, Int.neg_zero]

theorem cast_signed (negative : Bool) (n : Nat) : (signed negative n : ℚ) = (if negative then -1 else 1) * n := by
  cases negative <;> simp [signed]

theorem toRat_eq {x : Double} (h : x.isFinite = true) : x.toRat = unitsOfRank x.rank * 2 ^ (-1074 : Int) := by
  have hwidth : twoTo 52 = 2 ^ 52 := rfl
  have hfield := field_lt h
  rw [unitsOfRank_rank, toRat, view, units, hwidth]
  by_cases hsubnormal : x.magnitude / 2 ^ 52 = 0
  · have hfraction : x.magnitude % 2 ^ 52 = x.magnitude := by
      omega
    simp only [hsubnormal, hfraction, if_pos]
    rfl
  · have hexponent : ((x.magnitude / 2 ^ 52 : Nat) : Int) - 1075 = (x.magnitude / 2 ^ 52 - 1 : Nat) + -1074 := by
      omega
    simp only [if_neg hsubnormal, if_neg (Nat.ne_of_lt hfield), hexponent]
    rw [zpow_add₀ (by decide), zpow_natCast, cast_signed, cast_signed, Nat.cast_mul, Nat.cast_pow, Nat.cast_ofNat]
    simp only [mul_assoc]

theorem compare?_eq_cmp {x y : Double} (hx : x.isFinite = true) (hy : y.isFinite = true) :
    x.compare? y = some (cmp x.toRat y.toRat) := by
  rw [compare?, isNaN_of_isFinite hx, isNaN_of_isFinite hy, toRat_eq hx, toRat_eq hy,
    cmp_mul_pos_right (zpow_pos (by decide) _), Int.cast_strictMono.cmp_map_eq, strictMono_unitsOfRank.cmp_map_eq,
    cmp_eq_compare]
  rfl

end Double

/-! ### The decimal of a double -/

namespace Decimal

theorem trailingTwos_le (limit n : Nat) : ofDouble?.trailingTwos limit n ≤ limit := by
  induction limit generalizing n with
  | zero => exact Nat.le_refl 0
  | succ limit ih =>
    rw [ofDouble?.trailingTwos]
    split
    · exact Nat.succ_le_succ (ih _)
    · exact Nat.zero_le _

theorem twoTo_trailingTwos_dvd (limit n : Nat) : twoTo (ofDouble?.trailingTwos limit n) ∣ n := by
  induction limit generalizing n with
  | zero => exact Nat.one_dvd n
  | succ limit ih =>
    rw [ofDouble?.trailingTwos]
    split
    · next heven =>
      have hhalf : n = n / 2 * 2 := by
        omega
      have hdvd := Nat.mul_dvd_mul_right (ih (n / 2)) 2
      rwa [← hhalf] at hdvd
    · exact Nat.one_dvd n

/-- Twos behind the point are places behind the point once the fives are put to them. -/
theorem toRat_ofBinary {negative : Bool} {significand twos places lifts : Nat} (htwos : twos ≤ places)
    (hdvd : twoTo twos ∣ significand) :
    toRat ⟨Double.signed negative (significand * twoTo lifts / twoTo twos * Nat.pow 5 (places - twos)), (places - twos : Nat)⟩ =
      Double.signed negative significand * 2 ^ ((lifts : Int) - places) := by
  obtain ⟨kept, rfl⟩ := hdvd
  obtain ⟨rest, rfl⟩ := Nat.exists_eq_add_of_le htwos
  have hquotient : twoTo twos * kept * twoTo lifts / twoTo twos = kept * 2 ^ lifts := by
    rw [Nat.mul_assoc]
    exact Nat.mul_div_cancel_left _ (Nat.pow_pos (by decide))
  have hten : (10 : ℚ) = 5 * 2 := by
    norm_num
  have hpower : (2 : ℚ) ^ ((lifts : Int) - (twos + rest : Nat)) = 2 ^ lifts / (2 ^ twos * 2 ^ rest) := by
    rw [zpow_sub₀ (by decide), zpow_natCast, zpow_natCast, pow_add]
  rw [toRat, hquotient, Nat.add_sub_cancel_left, Double.cast_signed, Double.cast_signed, hpower, zpow_neg, zpow_natCast, hten, mul_pow]
  simp only [twoTo, Nat.pow_eq, Nat.cast_mul, Nat.cast_pow, Nat.cast_ofNat]
  field_simp

theorem exists_ofDouble? {x : Double} (h : x.isFinite = true) : ∃ d, ofDouble? x = some d ∧ d.toRat = x.toRat := by
  obtain ⟨negative, significand, exponent, hview⟩ := Double.exists_view_eq_finite h
  simp only [ofDouble?, Double.toRat, hview]
  by_cases hzero : significand = 0
  · refine ⟨⟨0, 0⟩, if_pos hzero, ?_⟩
    simp [toRat, hzero, Double.signed]
  · refine ⟨_, if_neg hzero, ?_⟩
    rw [toRat_ofBinary]
    · congr 2
      omega
    · split
      · exact Nat.zero_le _
      · exact trailingTwos_le _ _
    · split
      · exact Nat.one_dvd _
      · exact twoTo_trailingTwos_dvd _ _

end Decimal

/-! ### Values -/

namespace Value

/-- The rational number of a numeric value; an infinity and a NaN have none. -/
def rational? : Value → Option ℚ
  | integer n => some n.toInt
  | number x => if x.isFinite then some x.toRat else none
  | decimal d => some d.toRat
  | _ => none

theorem eq_toRat_of_rational? {x : Double} {q : ℚ} (h : (number x).rational? = some q) : x.isFinite = true ∧ x.toRat = q := by
  rw [rational?] at h
  split at h
  · next hfinite => exact ⟨hfinite, Option.some.inj h⟩
  · cases h

theorem exists_toDecimal? {value : Value} {q : ℚ} (h : value.rational? = some q) :
    ∃ d, value.toDecimal? = some d ∧ d.toRat = q := by
  cases value with
  | integer n =>
    obtain rfl := Option.some.inj h
    exact ⟨Decimal.ofInt n.toInt, rfl, by simp [Decimal.toRat, Decimal.ofInt]⟩
  | number x =>
    obtain ⟨hfinite, rfl⟩ := eq_toRat_of_rational? h
    exact Decimal.exists_ofDouble? hfinite
  | decimal d => exact ⟨d, rfl, Option.some.inj h⟩
  | _ => cases h

/-- Numbers of any kind are ordered as rational numbers. -/
theorem compare?_of_rational? {a b : Value} {p q : ℚ} (ha : a.rational? = some p) (hb : b.rational? = some q) :
    a.compare? b = some (cmp p q) := by
  have hmixed : a.compareNumbers? b = some (cmp p q) := by
    obtain ⟨d, hd, rfl⟩ := exists_toDecimal? ha
    obtain ⟨e, he, rfl⟩ := exists_toDecimal? hb
    simp only [compareNumbers?, hd, he, Decimal.compare_eq_cmp]
  -- integers and doubles are ordered without their decimals
  cases a with
  | integer m =>
    cases b with
    | integer n =>
      cases ha
      cases hb
      exact congrArg some (compare_intCast m.toInt n.toInt)
    | number y | decimal e => exact hmixed
    | _ => cases hb
  | number x =>
    cases b with
    | number y =>
      obtain ⟨hx, rfl⟩ := eq_toRat_of_rational? ha
      obtain ⟨hy, rfl⟩ := eq_toRat_of_rational? hb
      exact Double.compare?_eq_cmp hx hy
    | integer n | decimal e => exact hmixed
    | _ => cases hb
  | decimal d =>
    cases b with
    | integer n | number y | decimal e => exact hmixed
    | _ => cases hb
  | _ => cases ha

end Value

end ObjectStore
