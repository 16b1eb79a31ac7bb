import ObjectStore.Calendar.Text
import ObjectStore.Proofs.Calendar.Date
import ObjectStore.Proofs.Text.Numeral

/-!
# Text of dates, times and instants read back

A number of full width is read back by every reader that allows the width, if it is as wide as the reader takes at most or no digit follows. From the fields, dates, times of day and the instants of RFC 3339 are put together.
-/

namespace ObjectStore

namespace Calendar

/-! ### Fields -/

theorem number_append {least most : Nat} {front rest : List Char} (hfront : ∀ c ∈ front, c.isDigit = true)
    (hleast : least ≤ front.length) (hmost : front.length ≤ most)
    (hstop : front.length = most ∨ ∀ c ∈ rest.head?, c.isDigit = false) :
    number least most (front ++ rest) = some (Numeral.accumulate 0 front, rest) := by
  have hrest : (rest.take (most - front.length)).takeWhile Char.isDigit = [] := by
    rcases hstop with hfull | hstop
    · rw [hfull, Nat.sub_self]
      rfl
    · cases rest with
      | nil => simp
      | cons c rest =>
        cases most - front.length with
        | zero => rfl
        | succ more => simp [hstop c rfl]
  have hdigits : ((front ++ rest).take most).takeWhile Char.isDigit = front := by
    rw [List.take_append, List.take_of_length_le hmost, List.takeWhile_append_of_pos hfront, hrest, List.append_nil]
  rw [number, hdigits, if_neg (Nat.not_lt.mpr hleast), List.drop_left]

theorem number_padded {least most width n : Nat} (hwidth : 0 < width) (hn : n < tenTo width) (hleast : least ≤ width)
    (hmost : width ≤ most) {rest : List Char} (hstop : width = most ∨ ∀ c ∈ rest.head?, c.isDigit = false) :
    number least most ((Numeral.padded width n).toList ++ rest) = some (n, rest) := by
  have hlength := Numeral.length_padded hwidth hn
  rw [number_append (fun _ => Numeral.isDigit_of_mem_padded) (by omega) (by omega) (by rwa [hlength]),
    Numeral.accumulate_padded]

theorem number_eq_none {least most : Nat} (hleast : 0 < least) {c : Char} (hc : c.isDigit = false) (rest : List Char) :
    number least most (c :: rest) = none := by
  have hdigits : ((c :: rest).take most).takeWhile Char.isDigit = [] := by
    cases most with
    | zero => rfl
    | succ most => rw [List.take_succ_cons, List.takeWhile_cons_of_neg (by rw [hc]; exact Bool.false_ne_true)]
  rw [number, hdigits, List.length_nil, if_pos hleast]

theorem symbol_cons (c : Char) (rest : List Char) : symbol c (c :: rest) = some ((), rest) := by
  rw [symbol, if_pos rfl]

theorem isBlank_of_isDigit {c : Char} (h : c.isDigit = true) : isBlank c = false := by
  have hdigit : 48 ≤ c.toNat ∧ c.toNat ≤ 57 := by
    simpa [Char.isDigit, Char.le_def, UInt32.le_iff_toNat_le] using h
  simp only [isBlank, Bool.or_eq_false_iff, Bool.and_eq_false_iff, decide_eq_false_iff_not, beq_eq_false_iff_ne]
  omega

theorem dropWhile_isBlank_padded (width n : Nat) (rest : List Char) :
    ((Numeral.padded width n).toList ++ rest).dropWhile isBlank = (Numeral.padded width n).toList ++ rest := by
  have hne := Numeral.padded_ne_nil width n
  cases htext : (Numeral.padded width n).toList with
  | nil => exact absurd htext hne
  | cons c front =>
    have hdigit : c.isDigit = true := Numeral.isDigit_of_mem_padded (htext ▸ List.mem_cons_self)
    rw [List.cons_append, List.dropWhile_cons_of_neg]
    rw [isBlank_of_isDigit hdigit]
    exact Bool.false_ne_true

theorem blankNumber_padded {n : Nat} (hn : n < 100) (rest : List Char) :
    blankNumber 2 ((Numeral.padded 2 n).toList ++ rest) = some (n, rest) := by
  rw [blankNumber, dropWhile_isBlank_padded]
  exact number_padded (by decide) hn (by decide) (Nat.le_refl 2) (Or.inl rfl)

theorem anyNumber_padded (width n : Nat) {rest : List Char} (hstop : ∀ c ∈ rest.head?, c.isDigit = false) :
    anyNumber ((Numeral.padded width n).toList ++ rest) = some (n, rest) := by
  have hne := Numeral.padded_ne_nil width n
  simp only [anyNumber, Numeral.splitDigits_append (fun _ => Numeral.isDigit_of_mem_padded) hstop]
  rw [if_neg (by simpa using hne), Numeral.accumulate_padded]

theorem blankYear_unsigned {n : Nat} (hn : n < 10000) (rest : List Char) :
    blankYear ((Numeral.padded 4 n).toList ++ rest) = some ((n : Int), rest) := by
  have hnumber : number 1 4 ((Numeral.padded 4 n).toList ++ rest) = some (n, rest) :=
    number_padded (by decide) hn (by decide) (Nat.le_refl 4) (Or.inl rfl)
  have hne := Numeral.padded_ne_nil 4 n
  simp only [blankYear, dropWhile_isBlank_padded]
  cases htext : (Numeral.padded 4 n).toList with
  | nil => exact absurd htext hne
  | cons c front =>
    have hdigit : c.isDigit = true := Numeral.isDigit_of_mem_padded (htext ▸ List.mem_cons_self)
    have hminus : c ≠ '-' := Numeral.ne_of_isDigit hdigit rfl
    have hplus : c ≠ '+' := Numeral.ne_of_isDigit hdigit rfl
    rw [htext, List.cons_append] at hnumber
    simp [hminus, hplus, hnumber]

theorem blankYear_yearText (year : Int) (rest : List Char) :
    blankYear ((yearText year).toList ++ '-' :: rest) = some (year, '-' :: rest) := by
  have hread := anyNumber_padded 4 year.natAbs (show ∀ c ∈ ('-' :: rest).head?, c.isDigit = false by simp)
  rw [yearText]
  by_cases hshort : 0 ≤ year ∧ year ≤ 9999
  · rw [if_pos hshort, blankYear_unsigned (by omega), Int.toNat_of_nonneg hshort.1]
  · rw [if_neg hshort, String.toList_append, List.append_assoc]
    by_cases hnegative : year < 0
    · rw [if_pos hnegative]
      have hsign (text : List Char) :
          blankYear ("-".toList ++ text) = (anyNumber text).map fun read => (-(read.1 : Int), read.2) := rfl
      rw [hsign, hread, Option.map_some, Int.ofNat_natAbs_of_nonpos (by omega), Int.neg_neg]
    · rw [if_neg hnegative]
      have hsign (text : List Char) :
          blankYear ("+".toList ++ text) = (anyNumber text).map fun read => ((read.1 : Int), read.2) := rfl
      rw [hsign, hread, Option.map_some, Int.natAbs_of_nonneg (by omega)]

/-! ### Dates -/

theorem toList_dateText (year : Int) (month day : Nat) :
    (dateText year month day).toList =
      (yearText year).toList ++
        '-' :: ((Numeral.padded 2 month).toList ++ '-' :: (Numeral.padded 2 day).toList) := by
  simp [dateText, String.toList_append, List.append_assoc]

theorem daysInMonth_bounds (year : Int) (month : Nat) :
    daysInMonth year month ≤ 31 ∧ (0 < daysInMonth year month → month ≤ 12) := by
  have hfebruary : (if isLeapYear year then 29 else 28) ≤ 29 := by
    split <;> omega
  rw [daysInMonth.eq_def]
  split <;> omega

theorem month_day_lt {year : Int} {month day : Nat} (h : isDate year month day = true) : month < 100 ∧ day < 100 := by
  obtain ⟨hdays, hmonth⟩ := daysInMonth_bounds year month
  simp only [isDate, Bool.and_eq_true, decide_eq_true_eq] at h
  omega

theorem yearText_inj {year other : Int} (h : yearText year = yearText other) : year = other := by
  have hread := blankYear_yearText year []
  rw [h, blankYear_yearText other []] at hread
  exact (congrArg Prod.fst (Option.some.inj hread)).symm

/-- Two dates whose months and days have two digits have one text only if they are one date. -/
theorem dateText_inj {date other : Int × Nat × Nat} (hdate : date.2.1 < 100 ∧ date.2.2 < 100)
    (hother : other.2.1 < 100 ∧ other.2.2 < 100)
    (h : (dateText date.1 date.2.1 date.2.2).toList = (dateText other.1 other.2.1 other.2.2).toList) : date = other := by
  have hwidth {n : Nat} (hn : n < 100) : (Numeral.padded 2 n).toList.length = 2 := Numeral.length_padded (by decide) hn
  have hpadded {n m : Nat} (h : (Numeral.padded 2 n).toList = (Numeral.padded 2 m).toList) : n = m := by
    rw [← Numeral.accumulate_padded 2 n, h, Numeral.accumulate_padded]
  rw [toList_dateText, toList_dateText] at h
  obtain ⟨hyears, hrest⟩ := List.append_inj' h (by simp [hwidth hdate.1, hwidth hdate.2, hwidth hother.1, hwidth hother.2])
  obtain ⟨hmonths, hdays⟩ := List.append_inj (List.cons.inj hrest).2 (by rw [hwidth hdate.1, hwidth hother.1])
  have hyear : date.1 = other.1 := yearText_inj (String.toList_injective hyears)
  have hmonth : date.2.1 = other.2.1 := hpadded hmonths
  have hday : date.2.2 = other.2.2 := hpadded (List.cons.inj hdays).2
  exact Prod.ext hyear (Prod.ext hmonth hday)

theorem civilOfDayNumber_lt (number : Int) :
    (civilOfDayNumber number).2.1 < 100 ∧ (civilOfDayNumber number).2.2 < 100 := by
  obtain ⟨parts⟩ : Nonempty (DayOfEra ((number + 719468) % 146097)) := exists_dayOfEra (by omega)
  have hmonth := monthFromMarch_bounds ⟨parts.dayOfYear_nonneg, parts.dayOfYear_le⟩
  have hlast := parts.dayOfYear_le
  rw [civilOfDayNumber_eq parts]
  dsimp only
  split <;> dsimp only <;> omega

end Calendar

theorem Date.ofText?_toText (d : Date) : Date.ofText? d.toText.toList = some d := by
  obtain ⟨hmonth, hday⟩ := Calendar.month_day_lt d.valid
  have hlast := Calendar.blankNumber_padded hday []
  rw [List.append_nil] at hlast
  simp only [Date.ofText?, Date.toText, Calendar.toList_dateText, Calendar.blankYear_yearText, Calendar.symbol_cons,
    Calendar.blankNumber_padded hmonth, hlast, Option.bind_eq_bind, Option.bind_some]
  simp [Date.ofParts?, d.valid]

namespace Calendar

/-! ### Times of day -/

/-- The second and the nanoseconds as they are written. -/
def writtenSecond (second nanos : Nat) : Nat × Nat :=
  if nanosPerSecond ≤ nanos then (second + 1, nanos - nanosPerSecond) else (second, nanos)

theorem toList_clockText (secondOfDay nanos : Nat) :
    (clockText .full secondOfDay nanos).toList =
      (Numeral.padded 2 (secondOfDay / 3600)).toList ++
        ':' :: ((Numeral.padded 2 (secondOfDay / 60 % 60)).toList ++
          ':' :: ((Numeral.padded 2 (writtenSecond (secondOfDay % 60) nanos).1).toList ++
            '.' :: (Numeral.padded 9 (writtenSecond (secondOfDay % 60) nanos).2).toList)) := by
  simp [clockText, writtenSecond, Fraction.text, String.toList_append, List.append_assoc]

theorem writtenSecond_lt {second nanos : Nat} (hsecond : second < 60) (hnanos : isNanos second nanos = true) :
    (writtenSecond second nanos).1 < 100 ∧ (writtenSecond second nanos).2 < nanosPerSecond := by
  have hbillion : nanosPerSecond = 1000000000 := rfl
  simp only [isNanos, Bool.or_eq_true, Bool.and_eq_true, decide_eq_true_eq] at hnanos
  rw [writtenSecond]
  split <;> dsimp only <;> omega

theorem leapSecond_writtenSecond {second nanos : Nat} (hsecond : second < 60) (hnanos : isNanos second nanos = true) :
    leapSecond (writtenSecond second nanos).1 (writtenSecond second nanos).2 = (second, nanos) := by
  simp only [isNanos, Bool.or_eq_true, Bool.and_eq_true, decide_eq_true_eq, beq_iff_eq] at hnanos
  rw [writtenSecond]
  split
  · have hlast : second = 59 := by
      omega
    have hsum : nanosPerSecond + (nanos - nanosPerSecond) = nanos := by
      omega
    rw [leapSecond, if_pos (by rw [hlast]), hsum, hlast]
  · rw [leapSecond, if_neg (by omega)]

theorem optionalFraction_padded {nanos : Nat} (hnanos : nanos < nanosPerSecond) {rest : List Char}
    (hstop : ∀ c ∈ rest.head?, c.isDigit = false) :
    optionalFraction ('.' :: ((Numeral.padded 9 nanos).toList ++ rest)) = some (nanos, rest) := by
  have hlength : (Numeral.padded 9 nanos).toList.length = 9 := Numeral.length_padded (by decide) hnanos
  have hne := Numeral.padded_ne_nil 9 nanos
  simp only [optionalFraction, fractionDigits, Numeral.splitDigits_append (fun _ => Numeral.isDigit_of_mem_padded) hstop]
  rw [if_neg (by simpa using hne), List.take_of_length_le (Nat.le_of_eq hlength), hlength, Numeral.accumulate_padded]
  simp [tenTo]

end Calendar

namespace TimeOfDay

/-- A time of day is read back from its text, also in a leap second, by any reader of nine digits behind a point. -/
theorem ofTextWith?_toText {fraction : Calendar.Reader Nat} (t : TimeOfDay)
    (hfraction : ∀ nanos < Calendar.nanosPerSecond, fraction ('.' :: (Numeral.padded 9 nanos).toList) = some (nanos, [])) :
    ofTextWith? fraction (t.toText .full).toList = some t := by
  obtain ⟨hour, minute, second, nanos, valid⟩ := t
  have hparts := valid
  simp only [Calendar.isTimeOfDay, Bool.and_eq_true, decide_eq_true_eq] at hparts
  obtain ⟨⟨⟨hhour, hminute⟩, hsecond⟩, hnanos⟩ := hparts
  obtain ⟨hwritten, hless⟩ := Calendar.writtenSecond_lt hsecond hnanos
  have hhourOf : (3600 * hour + 60 * minute + second) / 3600 = hour := by
    omega
  have hminuteOf : (3600 * hour + 60 * minute + second) / 60 % 60 = minute := by
    omega
  have hsecondOf : (3600 * hour + 60 * minute + second) % 60 = second := by
    omega
  simp only [ofTextWith?, toText, secondOfDay, Calendar.toList_clockText, hhourOf, hminuteOf, hsecondOf,
    Calendar.blankNumber_padded (show hour < 100 by omega), Calendar.blankNumber_padded (show minute < 100 by omega),
    Calendar.blankNumber_padded hwritten, hfraction _ hless, Calendar.symbol_cons,
    Calendar.leapSecond_writtenSecond hsecond hnanos, Option.bind_eq_bind, Option.bind_some]
  simp [ofParts?, valid]

theorem ofText?_toText (t : TimeOfDay) : ofText? (t.toText .full).toList = some t := by
  refine t.ofTextWith?_toText fun nanos hnanos => ?_
  have hread := Calendar.optionalFraction_padded hnanos (show ∀ c ∈ ([] : List Char).head?, c.isDigit = false by simp)
  rwa [List.append_nil] at hread

theorem ofFullText?_toText (t : TimeOfDay) : ofFullText? (t.toText .full).toList = some t := by
  refine t.ofTextWith?_toText fun nanos hnanos => ?_
  have hread : Calendar.number 9 9 ((Numeral.padded 9 nanos).toList ++ []) = some (nanos, []) :=
    Calendar.number_padded (by decide) hnanos (by decide) (Nat.le_refl 9) (Or.inl rfl)
  rwa [List.append_nil] at hread

end TimeOfDay

namespace Instant

/-! ### Instants -/

theorem isNanos_secondOfDay (t : Instant) : Calendar.isNanos (t.secondOfDay % 60) t.nanos = true := by
  have hvalid := t.valid
  simp only [Calendar.isInstant, Bool.and_eq_true] at hvalid
  have hsecond : t.secondOfDay % 60 = (t.seconds % 60).toNat := by
    have hday : Calendar.secondsPerDay = 86400 := rfl
    rw [secondOfDay, hday]
    omega
  rw [hsecond]
  exact hvalid.2

theorem secondOfDay_lt (t : Instant) : t.secondOfDay < 86400 := by
  have hday : Calendar.secondsPerDay = 86400 := rfl
  rw [secondOfDay, hday]
  omega

/-- The time of day of an instant. -/
def clock (t : Instant) : TimeOfDay where
  hour := t.secondOfDay / 3600
  minute := t.secondOfDay / 60 % 60
  second := t.secondOfDay % 60
  nanos := t.nanos
  valid := by
    have hhour : t.secondOfDay / 3600 < 24 := Nat.div_lt_of_lt_mul t.secondOfDay_lt
    simp only [Calendar.isTimeOfDay, Bool.and_eq_true, decide_eq_true_eq]
    exact ⟨⟨⟨hhour, Nat.mod_lt _ (by decide)⟩, Nat.mod_lt _ (by decide)⟩, t.isNanos_secondOfDay⟩

theorem ofParts?_clock (t : Instant) :
    TimeOfDay.ofParts? (t.secondOfDay / 3600) (t.secondOfDay / 60 % 60) (t.secondOfDay % 60) t.nanos = some t.clock :=
  dif_pos t.clock.valid

theorem secondOfDay_clock (t : Instant) : t.clock.secondOfDay = t.secondOfDay := by
  simp only [TimeOfDay.secondOfDay, clock]
  omega

theorem seconds_eq (t : Instant) :
    Calendar.dayNumber t.civil.1 t.civil.2.1 t.civil.2.2 * Calendar.secondsPerDay + t.clock.secondOfDay = t.seconds := by
  have hday : Calendar.secondsPerDay = 86400 := rfl
  rw [secondOfDay_clock, civil, Calendar.dayNumber_civilOfDayNumber, secondOfDay, hday]
  omega

theorem ofParts?_eq (t : Instant) : ofParts? t.seconds t.nanos = some t := dif_pos t.valid

theorem isDate_civil {t : Instant} (hyear : Calendar.firstYear ≤ t.civil.1 ∧ t.civil.1 ≤ Calendar.lastYear) :
    Calendar.isDate t.civil.1 t.civil.2.1 t.civil.2.2 = true :=
  Calendar.isDate_civilOfDayNumber hyear

theorem toList_toText (t : Instant) :
    (t.toText .full).toList =
      (Calendar.dateText t.civil.1 t.civil.2.1 t.civil.2.2).toList ++
        'T' :: ((Calendar.clockText .full t.secondOfDay t.nanos).toList ++ ['Z']) := by
  simp [toText, String.toList_append, List.append_assoc]

theorem length_clockText (t : Instant) : (Calendar.clockText .full t.secondOfDay t.nanos).toList.length = 18 := by
  obtain ⟨hsecond, hfraction⟩ := Calendar.writtenSecond_lt (Nat.mod_lt t.secondOfDay (by decide)) t.isNanos_secondOfDay
  have hnanos : (Calendar.writtenSecond (t.secondOfDay % 60) t.nanos).2 < tenTo 9 := hfraction
  have htime := t.secondOfDay_lt
  have htwo {n : Nat} (hn : n < 100) : (Numeral.padded 2 n).toList.length = 2 := Numeral.length_padded (by decide) hn
  simp [Calendar.toList_clockText, htwo (show t.secondOfDay / 3600 < 100 by omega),
    htwo (show t.secondOfDay / 60 % 60 < 100 by omega), htwo hsecond, Numeral.length_padded (by decide) hnanos]

/-- An instant is read back from RFC 3339, where a year has four digits. -/
theorem ofText?_toText {t : Instant} (hyear : 0 ≤ t.civil.1 ∧ t.civil.1 ≤ 9999) :
    ofText? (t.toText .full).toList = some t := by
  have hfirst : Calendar.firstYear = -262143 := rfl
  have hlast : Calendar.lastYear = 262142 := rfl
  have hdate := isDate_civil (t := t) (by omega)
  have hyearText : Calendar.yearText t.civil.1 = Numeral.padded 4 t.civil.1.toNat := if_pos hyear
  have hyearOf : (t.civil.1.toNat : Int) = t.civil.1 := Int.toNat_of_nonneg hyear.1
  obtain ⟨hmonth, hday⟩ := Calendar.month_day_lt hdate
  obtain ⟨hsecond, hfraction⟩ := Calendar.writtenSecond_lt (Nat.mod_lt t.secondOfDay (by decide)) t.isNanos_secondOfDay
  have htime := t.secondOfDay_lt
  have hyearLess : t.civil.1.toNat < 10000 := by
    omega
  have hfour {rest : List Char} :
      Calendar.number 4 4 ((Numeral.padded 4 t.civil.1.toNat).toList ++ rest) = some (t.civil.1.toNat, rest) :=
    Calendar.number_padded (by decide) hyearLess (by decide) (Nat.le_refl 4) (Or.inl rfl)
  have htwo {n : Nat} (hn : n < 100) (rest : List Char) :
      Calendar.number 2 2 ((Numeral.padded 2 n).toList ++ rest) = some (n, rest) :=
    Calendar.number_padded (by decide) hn (by decide) (Nat.le_refl 2) (Or.inl rfl)
  rw [ofText?, toList_toText, Calendar.toList_dateText, Calendar.toList_clockText, hyearText]
  simp only [List.append_assoc, List.cons_append]
  -- the reader takes the fields in the order in which they are written
  refine Option.bind_eq_some_iff.mpr ⟨_, hfour, ?_⟩
  refine Option.bind_eq_some_iff.mpr ⟨_, Calendar.symbol_cons _ _, ?_⟩
  refine Option.bind_eq_some_iff.mpr ⟨_, htwo hmonth _, ?_⟩
  refine Option.bind_eq_some_iff.mpr ⟨_, Calendar.symbol_cons _ _, ?_⟩
  refine Option.bind_eq_some_iff.mpr ⟨_, htwo hday _, ?_⟩
  refine Option.bind_eq_some_iff.mpr ⟨_, rfl, ?_⟩
  refine Option.bind_eq_some_iff.mpr ⟨_, htwo (by omega) _, ?_⟩
  refine Option.bind_eq_some_iff.mpr ⟨_, Calendar.symbol_cons _ _, ?_⟩
  refine Option.bind_eq_some_iff.mpr ⟨_, htwo (by omega) _, ?_⟩
  refine Option.bind_eq_some_iff.mpr ⟨_, Calendar.symbol_cons _ _, ?_⟩
  refine Option.bind_eq_some_iff.mpr ⟨_, htwo hsecond _, ?_⟩
  refine Option.bind_eq_some_iff.mpr ⟨_, Calendar.optionalFraction_padded hfraction (by simp), ?_⟩
  refine Option.bind_eq_some_iff.mpr ⟨(0, []), rfl, ?_⟩
  -- what was read is put together again
  have hleap := Calendar.leapSecond_writtenSecond (Nat.mod_lt t.secondOfDay (by decide)) t.isNanos_secondOfDay
  have hdateOf : Date.ofParts? (t.civil.1.toNat : Int) t.civil.2.1 t.civil.2.2 = some ⟨_, _, _, hdate⟩ := by
    rw [hyearOf]
    exact dif_pos hdate
  simp only [hleap, hdateOf, t.ofParts?_clock, Option.bind_eq_bind, Option.bind_some, Int.sub_zero, t.seconds_eq]
  exact t.ofParts?_eq

/-- RFC 3339 has no sign, and other years are written with one. -/
theorem ofText?_toText_eq_none {t : Instant} (hyear : ¬(0 ≤ t.civil.1 ∧ t.civil.1 ≤ 9999)) :
    ofText? (t.toText .full).toList = none := by
  have hnumber (sign : Char) (hsign : sign.isDigit = false) (rest : List Char) : ofText? (sign :: rest) = none := by
    rw [ofText?, Calendar.number_eq_none (by decide) hsign]
    rfl
  rw [toList_toText, Calendar.toList_dateText, Calendar.yearText, if_neg hyear, String.toList_append]
  split
  · exact hnumber '-' rfl _
  · exact hnumber '+' rfl _

/-! ### Distinct texts -/

/-- Behind the year all fields have their widths, so the text of an instant is told apart field by field from its end. -/
theorem toText_inj {t u : Instant} (h : t.toText .full = u.toText .full) : t = u := by
  have hlists := congrArg String.toList h
  rw [toList_toText, toList_toText] at hlists
  obtain ⟨hdates, hclocks⟩ := List.append_inj' hlists (by simp [length_clockText])
  have hcivil : t.civil = u.civil := Calendar.dateText_inj (Calendar.civilOfDayNumber_lt _) (Calendar.civilOfDayNumber_lt _) hdates
  have hclockTexts : t.clock.toText .full = u.clock.toText .full := by
    rw [TimeOfDay.toText, TimeOfDay.toText, secondOfDay_clock, secondOfDay_clock]
    exact String.toList_injective (List.append_cancel_right (List.cons.inj hclocks).2)
  have hclock : t.clock = u.clock := by
    have hread := t.clock.ofText?_toText
    rw [hclockTexts, TimeOfDay.ofText?_toText] at hread
    exact (Option.some.inj hread).symm
  have hseconds : t.seconds = u.seconds := by
    rw [← t.seconds_eq, ← u.seconds_eq, hcivil, hclock]
  have hnanos : t.nanos = u.nanos := congrArg TimeOfDay.nanos hclock
  cases t
  cases u
  cases hseconds
  cases hnanos
  rfl

/-! ### Milliseconds -/

theorem ofMillis?_millis {t : Instant} (hleap : t.inLeapSecond = false) (hwhole : t.nanos % 1000000 = 0) :
    ofMillis? t.millis = some t := by
  have hbillion : Calendar.nanosPerSecond = 1000000000 := rfl
  simp only [inLeapSecond, decide_eq_false_iff_not] at hleap
  have hseconds : t.millis / 1000 = t.seconds := by
    rw [millis]
    omega
  have hnanos : (t.millis % 1000).toNat * 1000000 = t.nanos := by
    rw [millis]
    omega
  rw [ofMillis?, hseconds, hnanos, ofParts?_eq]

/-- By its milliseconds a leap second is the second after it. -/
theorem ofMillis?_millis_of_inLeapSecond {t : Instant} (hleap : t.inLeapSecond = true) (hwhole : t.nanos % 1000000 = 0) :
    ofMillis? t.millis = ofParts? (t.seconds + 1) (t.nanos - Calendar.nanosPerSecond) := by
  have hnanos := t.isNanos_secondOfDay
  have hbillion : Calendar.nanosPerSecond = 1000000000 := rfl
  simp only [Calendar.isNanos, Bool.or_eq_true, Bool.and_eq_true, decide_eq_true_eq] at hnanos
  simp only [inLeapSecond, decide_eq_true_eq] at hleap
  have hsecond : t.millis / 1000 = t.seconds + 1 := by
    rw [millis]
    omega
  have hrest : (t.millis % 1000).toNat * 1000000 = t.nanos - Calendar.nanosPerSecond := by
    rw [millis]
    omega
  rw [ofMillis?, hsecond, hrest]

/-- Whether an instant is in a leap second behind the last second that is represented. -/
def isBeyondLast (t : Instant) : Bool := t.inLeapSecond && t.seconds == Calendar.lastSecond

/-- The milliseconds of a leap second are those of the second after it, if there is one. -/
theorem isSome_ofMillis?_millis_iff (t : Instant) : (ofMillis? t.millis).isSome = true ↔ t.isBeyondLast = false := by
  have hvalid := t.valid
  have hbillion : Calendar.nanosPerSecond = 1000000000 := rfl
  simp only [Calendar.isInstant, Calendar.isNanos, Bool.and_eq_true, Bool.or_eq_true, decide_eq_true_eq, beq_iff_eq] at hvalid
  have hfound : (ofMillis? t.millis).isSome = true ↔
      Calendar.isInstant (t.millis / 1000) ((t.millis % 1000).toNat * 1000000) = true := by
    rw [ofMillis?, ofParts?]
    split <;> simp [*]
  rw [hfound]
  simp only [isBeyondLast, inLeapSecond, Calendar.isInstant, Calendar.isNanos, Bool.and_eq_true, Bool.or_eq_true,
    Bool.and_eq_false_iff, decide_eq_true_eq, decide_eq_false_iff_not, beq_iff_eq, beq_eq_false_iff_ne]
  rw [millis]
  constructor <;> intro h <;> omega

theorem exists_toInt_eq_millis (t : Instant) : ∃ n : Int64, n.toInt = t.millis := by
  have hvalid := t.valid
  have hfirst : Calendar.firstSecond = -8334601228800 := rfl
  have hlast : Calendar.lastSecond = 8210266876799 := rfl
  have hbillion : Calendar.nanosPerSecond = 1000000000 := rfl
  simp only [Calendar.isInstant, Calendar.isNanos, Bool.and_eq_true, Bool.or_eq_true, decide_eq_true_eq] at hvalid
  have hbounds : -2 ^ 63 ≤ t.millis ∧ t.millis < 2 ^ 63 := by
    rw [millis]
    omega
  exact ⟨Int64.ofInt t.millis, Int64.toInt_ofInt_of_le hbounds.1 hbounds.2⟩

end Instant

end ObjectStore
