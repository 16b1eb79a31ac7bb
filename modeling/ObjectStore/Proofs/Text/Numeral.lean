import ObjectStore.Proofs.Number.Power
import ObjectStore.Text.Numeral

/-!
# Numerals read back

The digits of a number stand for the number, also with zeros in front, and a run of digits is read up to the first character that is none.
-/

namespace ObjectStore

namespace Numeral

theorem accumulate_append (start : Nat) (front rest : List Char) :
    accumulate start (front ++ rest) = accumulate (accumulate start front) rest := List.foldl_append

theorem accumulate_digits (n : Nat) : accumulate 0 (digits n) = n := Nat.ofDigitChars_ten_toDigits

theorem accumulate_replicate_zero (start count : Nat) : accumulate start (List.replicate count '0') = start * tenTo count := by
  induction count generalizing start with
  | zero => exact (Nat.mul_one start).symm
  | succ count ih =>
    have hstep : accumulate start (List.replicate (count + 1) '0') = accumulate (10 * start) (List.replicate count '0') := rfl
    rw [hstep, ih, tenTo_succ, Nat.mul_comm 10 start, Nat.mul_assoc]

theorem isDigit_of_mem_digits {n : Nat} {c : Char} (h : c ∈ digits n) : c.isDigit = true :=
  Nat.isDigit_of_mem_toDigits (by decide) (by decide) h

theorem digits_ne_nil (n : Nat) : digits n ≠ [] := Nat.toDigits_ne_nil

theorem length_digits_le {n width : Nat} (hwidth : 0 < width) (h : n < tenTo width) : (digits n).length ≤ width :=
  (Nat.length_toDigits_le_iff (by decide) hwidth).mpr h

/-- Ten times a number and one more digit. -/
theorem digits_snoc {n : Nat} (hn : 0 < n) {d : Nat} (hd : d < 10) : digits (10 * n + d) = digits n ++ [d.digitChar] := by
  rw [digits, ← Nat.toDigits_append_toDigits (by decide) hn hd, Nat.toDigits_of_lt_base hd]
  rfl

theorem digits_mul_tenTo {n : Nat} (hn : 0 < n) (zeros : Nat) :
    digits (n * tenTo zeros) = digits n ++ List.replicate zeros '0' := by
  induction zeros with
  | zero => simp [tenTo]
  | succ zeros ih =>
    have hpos : 0 < n * tenTo zeros := Nat.mul_pos hn (tenTo_pos zeros)
    have hstep : n * tenTo (zeros + 1) = 10 * (n * tenTo zeros) + 0 := by
      rw [tenTo_succ, Nat.mul_left_comm, Nat.add_zero]
    rw [hstep, digits_snoc hpos (by decide), ih, List.append_assoc, List.replicate_succ']
    rfl

/-! ### Digits of a given width -/

theorem toList_padded (width n : Nat) :
    (padded width n).toList = List.replicate (width - (digits n).length) '0' ++ digits n := by
  rw [padded, String.toList_ofList]

theorem isDigit_of_mem_padded {width n : Nat} {c : Char} (h : c ∈ (padded width n).toList) : c.isDigit = true := by
  rw [toList_padded, List.mem_append] at h
  rcases h with h | h
  · rw [(List.mem_replicate.mp h).2]
    rfl
  · exact isDigit_of_mem_digits h

theorem accumulate_padded (width n : Nat) : accumulate 0 (padded width n).toList = n := by
  rw [toList_padded, accumulate_append, accumulate_replicate_zero, Nat.zero_mul, accumulate_digits]

theorem length_padded {width n : Nat} (hwidth : 0 < width) (h : n < tenTo width) : (padded width n).toList.length = width := by
  have hlength := length_digits_le hwidth h
  rw [toList_padded, List.length_append, List.length_replicate]
  omega

theorem padded_ne_nil (width n : Nat) : (padded width n).toList ≠ [] := by
  rw [toList_padded]
  exact List.append_ne_nil_of_right_ne_nil _ (digits_ne_nil n)

/-! ### Reading -/

theorem natural?_eq_some {text : List Char} (hne : text ≠ []) (hdigits : ∀ c ∈ text, c.isDigit = true) :
    natural? text = some (accumulate 0 text) := by
  have hall : text.all Char.isDigit = true := List.all_eq_true.mpr hdigits
  rw [natural?, if_neg]
  simp [hall, hne]

theorem splitDigits_append {front rest : List Char} (hfront : ∀ c ∈ front, c.isDigit = true)
    (hrest : ∀ c ∈ rest.head?, c.isDigit = false) : splitDigits (front ++ rest) = (front, rest) := by
  have htake : rest.takeWhile Char.isDigit = [] := by
    cases rest with
    | nil => rfl
    | cons c rest => simp [hrest c rfl]
  have hdrop : rest.dropWhile Char.isDigit = rest := by
    cases rest with
    | nil => rfl
    | cons c rest => simp [hrest c rfl]
  rw [splitDigits, List.takeWhile_append_of_pos hfront, List.dropWhile_append_of_pos hfront, htake, hdrop, List.append_nil]

/-- A digit is none of the signs. -/
theorem ne_of_isDigit {c d : Char} (hc : c.isDigit = true) (hd : d.isDigit = false) : c ≠ d := by
  rintro rfl
  rw [hc] at hd
  cases hd

theorem integer?_natural {text : List Char} (hne : text ≠ []) (hdigits : ∀ c ∈ text, c.isDigit = true) :
    integer? text = some (accumulate 0 text : Int) := by
  cases text with
  | nil => exact absurd rfl hne
  | cons c rest =>
    have hc := hdigits c List.mem_cons_self
    have hminus : c ≠ '-' := ne_of_isDigit hc rfl
    have hplus : c ≠ '+' := ne_of_isDigit hc rfl
    simp [integer?, hminus, hplus, natural?_eq_some hne hdigits]

theorem integer?_negative {text : List Char} (hne : text ≠ []) (hdigits : ∀ c ∈ text, c.isDigit = true) :
    integer? ('-' :: text) = some (-(accumulate 0 text : Int)) := by
  rw [integer?, natural?_eq_some hne hdigits]
  rfl

theorem toList_toString (n : Nat) : (toString n).toList = digits n := Nat.toList_repr

theorem toList_toString_ofNat (n : Nat) : (toString (Int.ofNat n)).toList = digits n := toList_toString n

theorem toList_toString_negSucc (n : Nat) : (toString (Int.negSucc n)).toList = '-' :: digits (n + 1) := by
  rw [Int.toString_eq_repr, Int.repr_eq_if, if_neg (by omega), String.toList_append, Nat.toList_repr]
  rfl

/-- The text of an integer reads as that integer. -/
theorem integer?_toString (n : Int) : integer? (toString n).toList = some n := by
  cases n with
  | ofNat n =>
    rw [toList_toString_ofNat, integer?_natural (digits_ne_nil n) fun c => isDigit_of_mem_digits, accumulate_digits]
    rfl
  | negSucc n =>
    rw [toList_toString_negSucc, integer?_negative (digits_ne_nil _) fun c => isDigit_of_mem_digits, accumulate_digits]
    rfl

theorem int64?_toString (n : Int64) : int64? (toString n.toInt).toList = some n := by
  rw [int64?, integer?_toString]
  exact int64?_toInt n

end Numeral

end ObjectStore
