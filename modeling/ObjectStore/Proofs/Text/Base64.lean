import ObjectStore.Text.Base64

/-!
# Base64 reads back what it writes

Each symbol stands for its six bits and is never the padding character, so the reader takes the groups of the writer one by one and finds the padding only where it was put.
-/

namespace ObjectStore

namespace Base64

theorem value?_symbol : ∀ n < 64, value? (symbol n) = some n := by
  decide

theorem symbol_ne_padding : ∀ n < 64, symbol n ≠ '=' := by
  decide

theorem byte_eq {n : Nat} {b : UInt8} (h : n = b.toNat) : byte n = b := by
  rw [h, byte, UInt8.ofNat_toNat]

/-! ### The three kinds of groups -/

section Groups

variable {i j k l : Nat}

theorem decode?_oneByte (hi : i < 64) (hj : j < 64) (hunused : j % 16 = 0) :
    decode? [symbol i, symbol j, '=', '='] = some [byte (i * 4 + j / 16)] := by
  rw [decode?, value?_symbol i hi, value?_symbol j hj]
  exact if_pos hunused

theorem decode?_twoBytes (hi : i < 64) (hj : j < 64) (hk : k < 64) (hunused : k % 4 = 0) :
    decode? [symbol i, symbol j, symbol k, '='] = some [byte (i * 4 + j / 16), byte (j % 16 * 16 + k / 4)] := by
  rw [decode?, value?_symbol i hi, value?_symbol j hj, value?_symbol k hk]
  · exact if_pos hunused
  · exact symbol_ne_padding k hk

theorem decode?_threeBytes (hi : i < 64) (hj : j < 64) (hk : k < 64) (hl : l < 64) (rest : List Char) :
    decode? (symbol i :: symbol j :: symbol k :: symbol l :: rest) =
      (decode? rest).map fun bytes =>
        byte (i * 4 + j / 16) :: byte (j % 16 * 16 + k / 4) :: byte (k % 4 * 64 + l) :: bytes := by
  rw [decode?, value?_symbol i hi, value?_symbol j hj, value?_symbol k hk, value?_symbol l hl]
  · cases decode? rest <;> rfl
  · intro _ h
    exact absurd h (symbol_ne_padding l hl)
  · intro h
    exact absurd h (symbol_ne_padding l hl)

end Groups

/-- The reader gives back the bytes that were written. -/
theorem decode?_encode (bytes : List UInt8) : decode? (encode bytes) = some bytes := by
  induction bytes using encode.induct with
  | case1 => rfl
  | case2 a =>
    have ha := a.toNat_lt
    rw [encode, decode?_oneByte (by omega) (by omega) (by omega), byte_eq (b := a) (by omega)]
  | case3 a b =>
    have ha := a.toNat_lt
    have hb := b.toNat_lt
    rw [encode, decode?_twoBytes (by omega) (by omega) (by omega) (by omega)]
    rw [byte_eq (b := a) (by omega), byte_eq (b := b) (by omega)]
  | case4 a b c rest ih =>
    have ha := a.toNat_lt
    have hb := b.toNat_lt
    have hc := c.toNat_lt
    rw [encode, decode?_threeBytes (by omega) (by omega) (by omega) (by omega), ih, Option.map_some]
    rw [byte_eq (b := a) (by omega), byte_eq (b := b) (by omega), byte_eq (b := c) (by omega)]

end Base64

end ObjectStore
