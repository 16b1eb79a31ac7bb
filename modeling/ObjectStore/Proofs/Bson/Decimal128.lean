import ObjectStore.Bson.Decimal128
import ObjectStore.Proofs.Number.DecimalText

/-!
# Decimals that fit 128 bits

A decimal gets a representation only if that is the same number, and it gets one whenever there is one. Behind both is what happens to the digits: zeros are cut off their end until few enough remain and the exponent is not too small, or zeros are put behind them until the exponent is not too large. A coefficient that is the same number differs from the digits by such zeros.
-/

namespace ObjectStore

namespace Decimal128

/-! ### Digit counts -/

theorem width_le_iff {n k : Nat} (hk : 0 < k) : width n ≤ k ↔ n < tenTo k :=
  Nat.length_toDigits_le_iff (by decide) hk

theorem width_pos (n : Nat) : 0 < width n := List.length_pos_iff.mpr Nat.toDigits_ne_nil

theorem width_mul_tenTo {n : Nat} (hn : 0 < n) (zeros : Nat) : width (n * tenTo zeros) = width n + zeros := by
  have hdigits := congrArg List.length (Numeral.digits_mul_tenTo hn zeros)
  rwa [List.length_append, List.length_replicate] at hdigits

theorem tenTo_le_tenTo {m n : Nat} (h : m ≤ n) : tenTo m ≤ tenTo n := Nat.pow_le_pow_right (by decide) h

/-! ### The steps of a representation -/

theorem checked?_eq_some {negative : Bool} {coefficient : Nat} {exponent : Int} (h : inRange coefficient exponent = true) :
    checked? negative coefficient exponent = some (finite negative coefficient exponent h) := by
  rw [checked?, dif_pos h]

theorem cut?_mul_tenTo {n : Nat} (hn : 0 < n) (surplus : Nat) : cut? (n * tenTo surplus) surplus = some n := by
  have hwidth := width_mul_tenTo hn surplus
  have hpos := width_pos n
  rw [cut?, if_pos ⟨by omega, Nat.mul_mod_left _ _⟩, Nat.mul_div_cancel _ (tenTo_pos surplus)]

theorem eq_of_cut? {coefficient surplus shorter : Nat} (h : cut? coefficient surplus = some shorter) :
    coefficient = shorter * tenTo surplus := by
  rw [cut?] at h
  split at h
  · next hzeros =>
    cases h
    exact (Nat.div_mul_cancel (Nat.dvd_of_mod_eq_zero hzeros.2)).symm
  · cases h

/-- The zeros that are cut off and the zeros that are put behind the digits. -/
structure Shift (coefficient : Nat) (exponent : Int) (shifted : Nat) (target : Int) where
  kept : Nat
  cut : Nat
  added : Nat
  coefficient_eq : coefficient = kept * tenTo cut
  shifted_eq : shifted = kept * tenTo added
  target_eq : target = exponent + cut - added

theorem shift_of_ofParts? {negative : Bool} {coefficient : Nat} {exponent : Int} (hne : coefficient ≠ 0) {x : Decimal128}
    (h : ofParts? negative coefficient exponent = some x) :
    ∃ shifted target valid, Nonempty (Shift coefficient exponent shifted target) ∧ x = finite negative shifted target valid := by
  rw [ofParts?, if_neg hne] at h
  obtain ⟨shorter, hcut, h⟩ := Option.bind_eq_some_iff.mp h
  obtain ⟨longer, hpad, h⟩ := Option.bind_eq_some_iff.mp h
  have hlonger : longer = shorter * tenTo (exponent + max (width coefficient - precision) (leastExponent - exponent).toNat
      - greatestExponent).toNat := by
    rw [pad?] at hpad
    split at hpad
    · cases hpad
      rfl
    · cases hpad
  rw [checked?] at h
  split at h
  · next hvalid =>
    cases h
    exact ⟨_, _, hvalid, ⟨⟨shorter, _, _, eq_of_cut? hcut, hlonger, rfl⟩⟩, rfl⟩
  · cases h

/-- Zeros at the end of the digits are as good as an exponent. -/
theorem Shift.digitsAt_eq {coefficient shifted : Nat} {exponent target : Int} (h : Shift coefficient exponent shifted target)
    (negative : Bool) {scale : Int} (hfirst : -exponent ≤ scale) (hlast : -target ≤ scale) :
    Decimal.digitsAt ⟨Double.signed negative shifted, -target⟩ scale =
      Decimal.digitsAt ⟨Double.signed negative coefficient, -exponent⟩ scale := by
  obtain ⟨kept, cut, added, rfl, rfl, rfl⟩ := h
  have hplaces : added + (scale - -(exponent + cut - added)).toNat = cut + (scale - -exponent).toNat := by
    omega
  have hmagnitude : kept * tenTo added * tenTo (scale - -(exponent + cut - added)).toNat =
      kept * tenTo cut * tenTo (scale - -exponent).toNat := by
    rw [Nat.mul_assoc, Nat.mul_assoc, ← tenTo_add, ← tenTo_add, hplaces]
  cases negative with
  | false => exact congrArg Nat.cast hmagnitude
  | true =>
    simp only [Decimal.digitsAt, Double.signed, if_true, Int.neg_mul]
    exact congrArg (fun n : Nat => -(n : Int)) hmagnitude

/-! ### Numbers that are represented -/

/-- A representation of a decimal stands for the same number. -/
def Represents (x : Decimal128) (d : Decimal) : Prop := ∃ e, x.toDecimal? = some e ∧ e.same d = true

theorem represents_of_ofParts? {negative : Bool} {coefficient : Nat} {exponent : Int} (hne : coefficient ≠ 0) {x : Decimal128}
    (h : ofParts? negative coefficient exponent = some x) :
    x.Represents ⟨Double.signed negative coefficient, -exponent⟩ := by
  obtain ⟨shifted, target, valid, ⟨hshift⟩, rfl⟩ := shift_of_ofParts? hne h
  refine ⟨⟨Double.signed negative shifted, -target⟩, rfl, ?_⟩
  have hscale : -target ≤ max (-target) (-exponent) ∧ -exponent ≤ max (-target) (-exponent) := by
    omega
  rw [Decimal.same_iff hscale.1 hscale.2]
  exact hshift.digitsAt_eq negative hscale.2 hscale.1

section Found

variable {coefficient other : Nat} {exponent target : Int}

theorem ofParts?_eq_some (negative : Bool) (hne : coefficient ≠ 0) {surplus missing shorter : Nat}
    (hsurplus : max (width coefficient - precision) (leastExponent - exponent).toNat = surplus)
    (hmissing : (exponent + surplus - greatestExponent).toNat = missing) (hcut : cut? coefficient surplus = some shorter)
    (hroom : missing ≤ precision) (hvalid : inRange (shorter * tenTo missing) (exponent + surplus - missing) = true) :
    ofParts? negative coefficient exponent = some (finite negative _ _ hvalid) := by
  subst hsurplus hmissing
  rw [ofParts?, if_neg hne]
  refine Option.bind_eq_some_iff.mpr ⟨shorter, hcut, ?_⟩
  exact Option.bind_eq_some_iff.mpr ⟨_, if_pos hroom, checked?_eq_some hvalid⟩

theorem inRange_iff : inRange coefficient exponent = true ↔
    coefficient < tenTo precision ∧ leastExponent ≤ exponent ∧ exponent ≤ greatestExponent := by
  simp only [inRange, Bool.and_eq_true, decide_eq_true_eq, and_assoc]

/-- The digits end in zeros, and in as many as have to go. -/
theorem exists_ofParts?_of_zeros (negative : Bool) (hne : coefficient ≠ 0) (hrange : inRange other target = true)
    (horder : exponent ≤ target) (hzeros : coefficient = other * tenTo (target - exponent).toNat) :
    ∃ x, ofParts? negative coefficient exponent = some x := by
  have hprecision : precision = 34 := rfl
  obtain ⟨hother, hlow, hhigh⟩ := inRange_iff.mp hrange
  have hpos : 0 < other := Nat.pos_of_ne_zero fun hzero => hne (by rw [hzeros, hzero, Nat.zero_mul])
  have hwidth := width_mul_tenTo hpos (target - exponent).toNat
  rw [← hzeros] at hwidth
  have hfew : width other ≤ precision := (width_le_iff (by decide)).mpr hother
  generalize hsurplus : max (width coefficient - precision) (leastExponent - exponent).toNat = surplus
  obtain ⟨rest, hrest⟩ : ∃ rest, (target - exponent).toNat = rest + surplus :=
    ⟨(target - exponent).toNat - surplus, by omega⟩
  have hcut : cut? coefficient surplus = some (other * tenTo rest) := by
    rw [hzeros, hrest, tenTo_add, ← Nat.mul_assoc]
    exact cut?_mul_tenTo (Nat.mul_pos hpos (tenTo_pos rest)) surplus
  have hwidthKept := width_mul_tenTo hpos rest
  have hkept : other * tenTo rest < tenTo precision := (width_le_iff (by decide)).mp (by omega)
  have hvalid : inRange (other * tenTo rest * tenTo 0) (exponent + surplus - (0 : Nat)) = true := by
    rw [show tenTo 0 = 1 from rfl, Nat.mul_one]
    exact inRange_iff.mpr ⟨hkept, by omega, by omega⟩
  exact ⟨_, ofParts?_eq_some negative hne hsurplus (by omega) hcut (Nat.zero_le _) hvalid⟩

/-- There is room behind the digits for as many zeros as have to be added. -/
theorem exists_ofParts?_of_room (negative : Bool) (hne : coefficient ≠ 0) (hrange : inRange other target = true)
    (horder : target ≤ exponent) (hzeros : other = coefficient * tenTo (exponent - target).toNat) :
    ∃ x, ofParts? negative coefficient exponent = some x := by
  have hprecision : precision = 34 := rfl
  obtain ⟨hother, hlow, hhigh⟩ := inRange_iff.mp hrange
  have hpos : 0 < coefficient := Nat.pos_of_ne_zero hne
  have hwidth := width_mul_tenTo hpos (exponent - target).toNat
  rw [← hzeros] at hwidth
  have hfew : width other ≤ precision := (width_le_iff (by decide)).mpr hother
  have hsurplus : max (width coefficient - precision) (leastExponent - exponent).toNat = 0 := by
    omega
  have hcut : cut? coefficient 0 = some coefficient := by
    have hnone := cut?_mul_tenTo hpos 0
    rwa [show tenTo 0 = 1 from rfl, Nat.mul_one] at hnone
  generalize hmissing : (exponent + (0 : Nat) - greatestExponent).toNat = missing
  have hpadded : coefficient * tenTo missing < tenTo precision := by
    refine Nat.lt_of_le_of_lt ?_ hother
    rw [hzeros]
    exact Nat.mul_le_mul_left _ (tenTo_le_tenTo (by omega))
  have hvalid : inRange (coefficient * tenTo missing) (exponent + (0 : Nat) - missing) = true :=
    inRange_iff.mpr ⟨hpadded, by omega, by omega⟩
  exact ⟨_, ofParts?_eq_some negative hne hsurplus hmissing hcut (by omega) hvalid⟩

end Found

/-- Digits that stand for the same magnitude differ by zeros at their end. -/
theorem zeros_of_digitsAt_eq {m n : Nat} {e f scale : Int} (he : -e ≤ scale) (hf : -f ≤ scale) (horder : e ≤ f)
    (h : m * tenTo (scale - -e).toNat = n * tenTo (scale - -f).toNat) : m = n * tenTo (f - e).toNat := by
  have hplaces : (scale - -f).toNat = (f - e).toNat + (scale - -e).toNat := by
    omega
  rw [hplaces, tenTo_add, ← Nat.mul_assoc] at h
  exact Nat.eq_of_mul_eq_mul_right (tenTo_pos _) h

theorem Represents.exists_ofParts? {x : Decimal128} {negative : Bool} {coefficient : Nat} {exponent : Int}
    (hne : coefficient ≠ 0) (h : x.Represents ⟨Double.signed negative coefficient, -exponent⟩) :
    ∃ y, ofParts? negative coefficient exponent = some y := by
  obtain ⟨e, he, hsame⟩ := h
  cases x with
  | infinity sign => cases he
  | nan => cases he
  | finite sign other target valid =>
    cases he
    have hscale : -target ≤ max (-target) (-exponent) ∧ -exponent ≤ max (-target) (-exponent) := by
      omega
    rw [Decimal.same_iff hscale.1 hscale.2] at hsame
    have hdigits := congrArg Int.natAbs hsame
    rw [Decimal.natAbs_digitsAt, Decimal.natAbs_digitsAt] at hdigits
    have hsigned (sign : Bool) (n : Nat) : (Double.signed sign n).natAbs = n := by
      cases sign <;> simp [Double.signed]
    have hother : (if sign = true then -(other : Int) else other).natAbs = other := hsigned sign other
    rw [hother, hsigned] at hdigits
    rcases Int.le_total exponent target with horder | horder
    · exact exists_ofParts?_of_zeros negative hne valid horder
        (zeros_of_digitsAt_eq hscale.2 hscale.1 horder hdigits.symm)
    · exact exists_ofParts?_of_room negative hne valid horder (zeros_of_digitsAt_eq hscale.1 hscale.2 horder hdigits)

/-! ### Decimals -/

/-- The decimal as its text gives it: zeros that are written out belong to the digits. -/
theorem ofDecimal?_eq {d : Decimal} (hne : d.digits ≠ 0) :
    ofDecimal? d = ofParts? (d.digits < 0) d.printed.digits.natAbs (-d.printed.scale) := by
  rw [ofDecimal?, if_neg hne]
  by_cases hwhole : d.scale ≤ 0 ∧ -d.scale ≤ Decimal.trailingZeroLimit
  · rw [if_pos ⟨by omega, hwhole.2⟩, Decimal.printed_of_whole hne hwhole, Int.natAbs_mul, Int.natAbs_natCast]
    rfl
  · rw [if_neg fun h => hwhole ⟨by omega, h.2⟩, Decimal.printed, if_neg hne, if_neg hwhole]

theorem signed_printed {d : Decimal} (hne : d.digits ≠ 0) :
    Double.signed (d.digits < 0) d.printed.digits.natAbs = d.printed.digits := by
  have hsign : d.digits < 0 ↔ d.printed.digits < 0 := by
    rw [Decimal.printed, if_neg hne]
    split
    · exact (Decimal.mul_tenTo_neg_iff d.digits _).symm
    · rfl
  simp only [hsign]
  exact Decimal.signed_natAbs d.printed.digits

theorem printed_digits_ne_zero {d : Decimal} (hne : d.digits ≠ 0) : d.printed.digits ≠ 0 := by
  rw [Decimal.printed, if_neg hne]
  split
  · exact Decimal.mul_tenTo_ne_zero hne _
  · exact hne

theorem represents_printed_iff {x : Decimal128} {d : Decimal} : x.Represents d.printed ↔ x.Represents d := by
  refine exists_congr fun e => and_congr_right fun _ => ?_
  have hprinted : d.printed.scale ≤ max d.scale 0 := by
    rw [Decimal.printed]
    split
    · exact Int.le_max_right _ _
    · split
      · exact Int.le_max_right _ _
      · exact Int.le_max_left _ _
  have hscale : e.scale ≤ max e.scale (max d.scale 0) ∧ max d.scale 0 ≤ max e.scale (max d.scale 0) := by
    omega
  rw [Decimal.same_iff hscale.1 (Int.le_trans hprinted hscale.2),
    Decimal.same_iff hscale.1 (Int.le_trans (Int.le_max_left _ _) hscale.2), Decimal.digitsAt_printed hscale.2]

theorem represents_of_ofDecimal? {d : Decimal} {x : Decimal128} (h : ofDecimal? d = some x) : x.Represents d := by
  by_cases hzero : d.digits = 0
  · rw [ofDecimal?, if_pos hzero] at h
    cases h
    refine ⟨⟨0, 0⟩, rfl, ?_⟩
    rw [Decimal.same_iff (Int.le_max_left 0 d.scale) (Int.le_max_right 0 d.scale), Decimal.digitsAt_of_digits_eq_zero rfl,
      Decimal.digitsAt_of_digits_eq_zero hzero]
  · rw [ofDecimal?_eq hzero] at h
    have hfound := represents_of_ofParts? (by simpa using printed_digits_ne_zero hzero) h
    rw [signed_printed hzero, Int.neg_neg] at hfound
    exact represents_printed_iff.mp hfound

theorem Represents.exists_ofDecimal? {x : Decimal128} {d : Decimal} (h : x.Represents d) : ∃ y, ofDecimal? d = some y := by
  by_cases hzero : d.digits = 0
  · rw [ofDecimal?, if_pos hzero]
    exact ⟨_, rfl⟩
  · rw [ofDecimal?_eq hzero]
    have hprinted := represents_printed_iff.mpr h
    have hparts : d.printed = ⟨Double.signed (d.digits < 0) d.printed.digits.natAbs, -(-d.printed.scale)⟩ := by
      rw [signed_printed hzero, Int.neg_neg]
    rw [hparts] at hprinted
    exact hprinted.exists_ofParts? (by simpa using printed_digits_ne_zero hzero)

/-- A decimal has a representation exactly if some number of 128 bits is the same number. -/
theorem isSome_ofDecimal?_iff {d : Decimal} : (ofDecimal? d).isSome = true ↔ ∃ x : Decimal128, x.Represents d := by
  rw [Option.isSome_iff_exists]
  constructor
  · rintro ⟨x, hx⟩
    exact ⟨x, represents_of_ofDecimal? hx⟩
  · rintro ⟨x, hx⟩
    exact hx.exists_ofDecimal?

end Decimal128

end ObjectStore
