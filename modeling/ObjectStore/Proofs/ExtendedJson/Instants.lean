import ObjectStore.Proofs.ExtendedJson

/-!
# Instants in extended JSON

An instant is written in one of two forms, and each form loses something of its own. A count of milliseconds has no leap seconds: such a second is counted as the one after it, and the two have the same form. RFC 3339 keeps a leap second, but its reader knows only years of four digits, so an instant with a finer part in another year is read as an object with a text inside.
-/

namespace ObjectStore

namespace Instant

/-- An instant with a leap second counted as the second after it, which may be out of range. -/
def counted? (t : Instant) : Option Instant :=
  if t.inLeapSecond then ofParts? (t.seconds + 1) (t.nanos - Calendar.nanosPerSecond) else some t

theorem ofMillis?_millis_eq_counted? {t : Instant} (hwhole : t.nanos % 1000000 = 0) : ofMillis? t.millis = t.counted? := by
  rw [counted?]
  cases hleap : t.inLeapSecond with
  | true => exact ofMillis?_millis_of_inLeapSecond hleap hwhole
  | false => exact ofMillis?_millis hleap hwhole

theorem counted?_ne_self {t : Instant} (hleap : t.inLeapSecond = true) : t.counted? ≠ some t := by
  rw [counted?, if_pos hleap, ofParts?]
  intro h
  split at h
  · have hseconds : t.seconds + 1 = t.seconds := congrArg Instant.seconds (Option.some.inj h)
    omega
  · cases h

end Instant

namespace ExtendedJson

/-- What the form of an instant is read as. -/
def rereadInstant (t : Instant) : Value :=
  if t.nanos % 1000000 = 0 then
    match t.counted? with
    | some read => .timestamp read
    | none => .object [(Tag.date.name, .integer (Int64.ofInt t.millis))]
  else if 0 ≤ t.civil.1 ∧ t.civil.1 ≤ 9999 then .timestamp t
  else .object [(Tag.date.name, .string (t.toText .full))]

/-- Whether the form of an instant keeps it: milliseconds without a leap second, or RFC 3339 in a year of four digits. -/
def IsKept (t : Instant) : Prop :=
  if t.nanos % 1000000 = 0 then t.inLeapSecond = false else 0 ≤ t.civil.1 ∧ t.civil.1 ≤ 9999

/-! ### Reading -/

theorem decode_wrap_eq {tag : Tag} (htag : tag ≠ .object) (payload : Json) :
    decode (tag.wrap payload) = (unwrap? tag payload).getD (.object [(tag.name, decode payload)]) := by
  generalize hread : decode payload = read
  cases payload with
  | object inner =>
    rw [Tag.wrap, decode, Tag.ofName?_name, hread]
    cases tag with
    | object => exact absurd rfl htag
    | _ => rfl
  | _ =>
    rw [Tag.wrap, decode, Tag.ofName?_name, Option.bind_some, hread]
    intro inner hinner
    cases hinner

theorem instant?_count (n : Int64) : instant? (Tag.long.wrap (.string (toString n.toInt))) = Instant.ofMillis? n.toInt := by
  rw [Tag.wrap, instant?, if_pos rfl, Numeral.int64?_toString, Option.bind_some]

theorem decode_encode_timestamp (t : Instant) : decode (encode (.timestamp t)) = rereadInstant t := by
  rw [encode, encodeInstant, rereadInstant]
  by_cases hwhole : t.nanos % 1000000 = 0
  · obtain ⟨n, hn⟩ := t.exists_toInt_eq_millis
    rw [if_pos hwhole, if_pos hwhole, ← hn, Int64.ofInt_toInt]
    have hread : instant? (Tag.long.wrap (.string (toString n.toInt))) = t.counted? := by
      rw [instant?_count, hn, Instant.ofMillis?_millis_eq_counted? hwhole]
    cases hcounted : t.counted? with
    | some read => rw [decode_wrap_eq (by decide), unwrap?, hread, hcounted, Option.map_some, Option.getD_some]
    | none =>
      have hcount : decode (Tag.long.wrap (.string (toString n.toInt))) = .integer n := by
        apply decode_wrap
        rw [unwrap?, Numeral.int64?_toString, Option.map_some]
      rw [decode_wrap_eq (by decide), unwrap?, hread, hcounted, hcount, Option.map_none, Option.getD_none]
  · rw [if_neg hwhole, if_neg hwhole]
    by_cases hyear : 0 ≤ t.civil.1 ∧ t.civil.1 ≤ 9999
    · rw [if_pos hyear, decode_wrap_eq (by decide), unwrap?, instant?, Instant.ofText?_toText hyear, Option.map_some,
        Option.getD_some]
    · rw [if_neg hyear, decode_wrap_eq (by decide), unwrap?, instant?, Instant.ofText?_toText_eq_none hyear, Option.map_none,
        Option.getD_none, decode]

theorem rereadInstant_eq_iff (t : Instant) : rereadInstant t = .timestamp t ↔ IsKept t := by
  rw [rereadInstant, IsKept]
  by_cases hwhole : t.nanos % 1000000 = 0
  · rw [if_pos hwhole, if_pos hwhole]
    cases hleap : t.inLeapSecond with
    | false => simp [Instant.counted?, hleap]
    | true =>
      have hne := Instant.counted?_ne_self hleap
      cases hcounted : t.counted? with
      | none => simp
      | some read =>
        have hread : read ≠ t := fun h => hne (by rw [hcounted, h])
        simp [hread]
  · rw [if_neg hwhole, if_neg hwhole]
    split <;> simp [*]

/-! ### Writing -/

/-- Only counts of milliseconds have a form in common. -/
theorem encodeInstant_eq_iff (t u : Instant) : encodeInstant t = encodeInstant u ↔
    t = u ∨ t.nanos % 1000000 = 0 ∧ u.nanos % 1000000 = 0 ∧ t.millis = u.millis := by
  constructor
  · intro h
    rw [encodeInstant, encodeInstant] at h
    split at h <;> split at h
    case isTrue.isTrue hwhole hother =>
      have htexts : toString t.millis = toString u.millis := by
        simpa [Tag.wrap] using h
      have hread := Numeral.integer?_toString t.millis
      rw [htexts, Numeral.integer?_toString] at hread
      exact Or.inr ⟨hwhole, hother, (Option.some.inj hread).symm⟩
    case isTrue.isFalse | isFalse.isTrue => cases h
    case isFalse.isFalse => exact Or.inl (Instant.toText_inj (Json.string.inj h))
  · rintro (rfl | ⟨hwhole, hother, hmillis⟩)
    · rfl
    · rw [encodeInstant, encodeInstant, if_pos hwhole, if_pos hother, hmillis]

/-- An instant is read back from its form exactly if it is kept there. Whole milliseconds in a leap second become those of the second after it; a finer part outside the years of four digits leaves an object with the text. The form itself tells instants apart but for those with the same whole milliseconds. -/
theorem instants_read_back (t : Instant) :
    decode (encode (.timestamp t)) = rereadInstant t ∧
      (decode (encode (.timestamp t)) = .timestamp t ↔ IsKept t) ∧
      ∀ u : Instant, encode (.timestamp u) = encode (.timestamp t) ↔
        u = t ∨ u.nanos % 1000000 = 0 ∧ t.nanos % 1000000 = 0 ∧ u.millis = t.millis := by
  refine ⟨decode_encode_timestamp t, ?_, fun u => ?_⟩
  · rw [decode_encode_timestamp, rereadInstant_eq_iff]
  · rw [← encodeInstant_eq_iff, encode, encode]
    simp [Tag.wrap]

/-- A leap second of whole milliseconds is read as the second after it, and a nanosecond of the year 10000 as an object. -/
theorem instants_not_kept :
    decode (encode (.timestamp { seconds := 59, nanos := 1500000000 })) = .timestamp { seconds := 60, nanos := 500000000 } ∧
      decode (encode (.timestamp { seconds := 253402300800, nanos := 1 })) =
        .object [("$date", .string "+10000-01-01T00:00:00.000000001Z")] ∧
      ¬∀ t : Instant, decode (encode (.timestamp t)) = .timestamp t := by
  have hleap : decode (encode (.timestamp { seconds := 59, nanos := 1500000000 })) =
      .timestamp { seconds := 60, nanos := 500000000 } :=
    (decode_encode_timestamp _).trans rfl
  refine ⟨hleap, (decode_encode_timestamp _).trans rfl, fun hall => ?_⟩
  rw [hall] at hleap
  cases hleap

end ExtendedJson

end ObjectStore
