import ObjectStore.Number.Decimal
import ObjectStore.Proofs.Number.Power

/-!
# The order of decimals is exact

Two decimals are compared as their digits are at any scale that loses none of them. The shortcut for numbers that are far apart gives the same answer: digits of binary length `b` are below `2 ^ b` and so below `10 ^ b`.
-/

namespace ObjectStore

namespace Decimal

/-! ### Digits at a scale -/

theorem digitsAt_add {d : Decimal} {scale : Int} (h : d.scale ≤ scale) (places : Nat) :
    d.digitsAt (scale + places) = d.digitsAt scale * tenTo places := by
  have hplaces : (scale + places - d.scale).toNat = (scale - d.scale).toNat + places := by
    omega
  rw [digitsAt, digitsAt, hplaces, tenTo_add, Int.natCast_mul, Int.mul_assoc]

theorem natAbs_digitsAt (d : Decimal) (scale : Int) :
    (d.digitsAt scale).natAbs = d.digits.natAbs * tenTo (scale - d.scale).toNat := by
  rw [digitsAt, Int.natAbs_mul, Int.natAbs_natCast]

theorem digitsAt_pos {d : Decimal} (h : 0 < d.digits) (scale : Int) : 0 < d.digitsAt scale :=
  Int.mul_pos h (Int.natCast_pos.mpr (tenTo_pos _))

theorem digitsAt_neg {d : Decimal} (h : d.digits < 0) (scale : Int) : d.digitsAt scale < 0 :=
  Int.mul_neg_of_neg_of_pos h (Int.natCast_pos.mpr (tenTo_pos _))

theorem digitsAt_of_digits_eq_zero {d : Decimal} (h : d.digits = 0) (scale : Int) : d.digitsAt scale = 0 := by
  rw [digitsAt, h, Int.zero_mul]

/-! ### Numbers that are far apart -/

/-- The digits lie below the power of ten that has their binary length. -/
theorem natAbs_lt_tenTo (n : Int) {places : Nat} (h : Nat.log2 n.natAbs + 1 ≤ places) : n.natAbs < tenTo places :=
  calc n.natAbs < 2 ^ (Nat.log2 n.natAbs + 1) := Nat.lt_log2_self
    _ ≤ 2 ^ places := Nat.pow_le_pow_right (by decide) h
    _ ≤ 10 ^ places := Nat.pow_le_pow_left (by decide) places

theorem natAbs_digitsAt_lt_of_outweighs {a b : Decimal} (h : a.outweighs b = true) {scale : Int} (hb : b.scale ≤ scale) :
    (b.digitsAt scale).natAbs < (a.digitsAt scale).natAbs := by
  simp only [outweighs, Bool.and_eq_true, Bool.or_eq_true, bne_iff_ne, beq_iff_eq, decide_eq_true_eq] at h
  obtain ⟨hne, hfar⟩ := h
  have hdigits : 0 < a.digits.natAbs := Int.natAbs_pos.mpr hne
  rw [natAbs_digitsAt, natAbs_digitsAt]
  rcases hfar with hzero | hfar
  · rw [hzero, Int.natAbs_zero, Nat.zero_mul]
    exact Nat.mul_pos hdigits (tenTo_pos _)
  · rw [reach] at hfar
    have hplaces : (scale - a.scale).toNat = (b.scale - a.scale).toNat + (scale - b.scale).toNat := by
      omega
    have hbelow : b.digits.natAbs < tenTo (b.scale - a.scale).toNat := natAbs_lt_tenTo _ (by omega)
    calc b.digits.natAbs * tenTo (scale - b.scale).toNat
        < tenTo (b.scale - a.scale).toNat * tenTo (scale - b.scale).toNat := Nat.mul_lt_mul_of_pos_right hbelow (tenTo_pos _)
      _ = tenTo (scale - a.scale).toNat := by rw [hplaces, tenTo_add]
      _ ≤ a.digits.natAbs * tenTo (scale - a.scale).toNat := Nat.le_mul_of_pos_left _ hdigits

/-- The sign of the greater number decides. -/
theorem compare_digitsAt_of_outweighs {a b : Decimal} (h : a.outweighs b = true) {scale : Int} (hb : b.scale ≤ scale) :
    Ord.compare (a.digitsAt scale) (b.digitsAt scale) = Ord.compare a.digits 0 := by
  have hlarger := natAbs_digitsAt_lt_of_outweighs h hb
  have hne : a.digits ≠ 0 := by
    intro hzero
    rw [digitsAt_of_digits_eq_zero hzero] at hlarger
    exact absurd hlarger (Nat.not_lt_zero _)
  rcases Int.lt_or_gt_of_ne hne with hneg | hpos
  · have hdigits := digitsAt_neg hneg scale
    rw [Int.compare_eq_lt.mpr hneg, Int.compare_eq_lt]
    omega
  · have hdigits := digitsAt_pos hpos scale
    rw [Int.compare_eq_gt.mpr hpos, Int.compare_eq_gt]
    omega

/-! ### The order -/

theorem compare_mul_of_pos {x y factor : Int} (h : 0 < factor) : Ord.compare (x * factor) (y * factor) = Ord.compare x y := by
  rcases Int.lt_trichotomy x y with hless | rfl | hgreater
  · rw [Int.compare_eq_lt.mpr hless, Int.compare_eq_lt]
    exact Int.mul_lt_mul_of_pos_right hless h
  · rw [Int.compare_eq_eq.mpr rfl, Int.compare_eq_eq.mpr rfl]
  · rw [Int.compare_eq_gt.mpr hgreater, Int.compare_eq_gt]
    exact Int.mul_lt_mul_of_pos_right hgreater h

/-- Two decimals are compared as their digits are at a scale that loses none of them. -/
theorem compare_eq {a b : Decimal} {scale : Int} (ha : a.scale ≤ scale) (hb : b.scale ≤ scale) :
    a.compare b = Ord.compare (a.digitsAt scale) (b.digitsAt scale) := by
  rw [compare]
  by_cases hleft : a.outweighs b = true
  · rw [if_pos hleft, compare_digitsAt_of_outweighs hleft hb]
  rw [if_neg hleft]
  by_cases hright : b.outweighs a = true
  · rw [if_pos hright, ← Int.compare_swap, ← compare_digitsAt_of_outweighs hright ha, Int.compare_swap]
  rw [if_neg hright]
  by_cases hzero : a.digits = 0
  · have hother : b.digits = 0 := by
      simpa [outweighs, hzero] using hright
    rw [if_pos hzero, digitsAt_of_digits_eq_zero hzero, digitsAt_of_digits_eq_zero hother]
    rfl
  · obtain ⟨places, hplaces⟩ : ∃ places : Nat, scale = max a.scale b.scale + places :=
      ⟨(scale - max a.scale b.scale).toNat, by omega⟩
    rw [if_neg hzero, hplaces, digitsAt_add (Int.le_max_left _ _), digitsAt_add (Int.le_max_right _ _),
      compare_mul_of_pos (Int.natCast_pos.mpr (tenTo_pos places))]

theorem same_iff {a b : Decimal} {scale : Int} (ha : a.scale ≤ scale) (hb : b.scale ≤ scale) :
    a.same b = true ↔ a.digitsAt scale = b.digitsAt scale := by
  rw [same, compare_eq ha hb, beq_iff_eq, Int.compare_eq_eq]

end Decimal

end ObjectStore
