import ObjectStore.Number.Power

/-!
# Powers of ten and words

Powers of ten are positive and multiply as their exponents add up, and an integer of 64 bits is found again from its number.
-/

namespace ObjectStore

theorem tenTo_pos (n : Nat) : 0 < tenTo n := Nat.pow_pos (by decide)

theorem tenTo_add (m n : Nat) : tenTo (m + n) = tenTo m * tenTo n := Nat.pow_add 10 m n

theorem tenTo_succ (n : Nat) : tenTo (n + 1) = 10 * tenTo n := Nat.pow_succ'

theorem int64?_toInt (n : Int64) : int64? n.toInt = some n := by
  have hfits : fitsBits 64 n.toInt = true := by
    have hlow := Int64.le_toInt n
    have hhigh := Int64.toInt_lt n
    have hbound : twoTo (64 - 1) = 9223372036854775808 := rfl
    simp only [fitsBits, Bool.and_eq_true, decide_eq_true_eq]
    omega
  rw [int64?, if_pos hfits, Int64.ofInt_toInt]

theorem toInt_of_int64? {n : Int} {word : Int64} (h : int64? n = some word) : word.toInt = n := by
  rw [int64?] at h
  split at h
  · next hfits =>
    have hbound : twoTo (64 - 1) = 2 ^ 63 := rfl
    simp only [fitsBits, Bool.and_eq_true, decide_eq_true_eq, hbound] at hfits
    rw [← Option.some.inj h]
    exact Int64.toInt_ofInt_of_le hfits.1 hfits.2
  · cases h

end ObjectStore
