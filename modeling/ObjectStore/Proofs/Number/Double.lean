import ObjectStore.Number.Double

/-!
# The bits of a double

The sign and the magnitude determine a double, so a double that is neither finite nor a NaN is one of the two infinities.
-/

namespace ObjectStore

namespace Double

theorem ofMagnitude_magnitude (x : Double) : ofMagnitude x.negative x.magnitude = x := by
  have hsign : twoTo 63 = 9223372036854775808 := rfl
  have hbits := x.bits.toNat_lt
  have hsum : (if x.negative = true then twoTo 63 + x.magnitude else x.magnitude) = x.bits.toNat := by
    simp only [negative, magnitude, hsign, decide_eq_true_eq]
    split <;> omega
  rw [ofMagnitude, hsum, UInt64.ofNat_toNat]

theorem eq_infinity {x : Double} (hfinite : x.isFinite = false) (hnan : x.isNaN = false) : x = infinity x.negative := by
  have hmagnitude : x.magnitude = infinityBits := by
    simp only [isFinite, isNaN, decide_eq_false_iff_not] at hfinite hnan
    omega
  rw [infinity, ← hmagnitude, ofMagnitude_magnitude]

/-- The double with the one bit pattern of NaNs. -/
def canonical (x : Double) : Double := ⟨x.canonicalBits⟩

theorem canonical_of_isNaN {x : Double} (h : x.isNaN = true) : x.canonical = nan := by
  rw [canonical, canonicalBits, if_pos h]

theorem canonical_of_not_isNaN {x : Double} (h : x.isNaN = false) : x.canonical = x := by
  rw [canonical, canonicalBits, if_neg (by rw [h]; exact Bool.false_ne_true)]

theorem isNaN_of_isFinite {x : Double} (h : x.isFinite = true) : x.isNaN = false := by
  simp only [isFinite, isNaN, decide_eq_true_eq, decide_eq_false_iff_not] at h ⊢
  omega

theorem isFinite_of_isNaN {x : Double} (h : x.isNaN = true) : x.isFinite = false := by
  cases hfinite : x.isFinite with
  | true => exact absurd h (by rw [isNaN_of_isFinite hfinite]; exact Bool.false_ne_true)
  | false => rfl

theorem isNaN_nan : nan.isNaN = true := by
  decide

theorem canonical_canonical (x : Double) : x.canonical.canonical = x.canonical := by
  cases h : x.isNaN with
  | true => rw [canonical_of_isNaN h, canonical_of_isNaN isNaN_nan]
  | false => rw [canonical_of_not_isNaN h, canonical_of_not_isNaN h]

theorem isNaN_canonical (x : Double) : x.canonical.isNaN = x.isNaN := by
  cases h : x.isNaN with
  | true => rw [canonical_of_isNaN h, isNaN_nan]
  | false => rw [canonical_of_not_isNaN h, h]

end Double

end ObjectStore
