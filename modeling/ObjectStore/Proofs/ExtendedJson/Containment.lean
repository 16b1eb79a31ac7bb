import ObjectStore.Proofs.ExtendedJson.Instants
import ObjectStore.Proofs.Number.Rational
import ObjectStore.Proofs.Value.Loose
import ObjectStore.Proofs.Value.Scalars

/-!
# Containment of JSON documents

One document contains another one if it agrees with it as far as the other one goes: an array has some item for every item of the part, an object has every name of the part, and scalars are equal, numbers by their value. So containment asks for less than equality of arrays and objects, and of scalars it asks that they be written alike.

For the JSON forms of values this means that whatever is loosely equal is contained, if numbers that are equal are also written alike. The converse needs more: the arrays and objects of both values must have the same outline, no object may pass for a wrapped scalar, and no two scalars that differ may have a form in common, as NaNs and leap seconds do.
-/

namespace ObjectStore

namespace Value

/-! ### Equality of arrays and objects -/

theorem isScalar_of_looselyEquals {a b : Value} (hb : b.isScalar = true) (h : a.looselyEquals b = true) : a.isScalar = true := by
  cases a with
  | array items => cases b <;> first | cases h | cases hb
  | object fields => cases b <;> first | cases h | cases hb
  | _ => rfl

theorem array_of_looselyEquals {a : Value} {others : List Value} (h : a.looselyEquals (.array others) = true) :
    ∃ items, a = .array items := by
  cases a with
  | array items => exact ⟨items, rfl⟩
  | _ => cases h

theorem object_of_looselyEquals {a : Value} {others : List (String × Value)} (h : a.looselyEquals (.object others) = true) :
    ∃ fields, a = .object fields := by
  cases a with
  | object fields => exact ⟨fields, rfl⟩
  | _ => cases h

end Value

/-! ### Containment -/

namespace Json

/-- What a server reads in the numerals of doubles: they are told apart as the doubles are, and small whole numbers are exact. -/
structure Numerals (numeral : Double → ℚ) : Prop where
  eq_iff {x y : Double} (hx : x.isFinite = true) (hy : y.isFinite = true) : numeral x = numeral y ↔ x.toRat = y.toRat
  eq_whole_iff {x : Double} (hx : x.isFinite = true) {n : Int}
    (hn : -ExtendedJson.maxSafeInteger ≤ n ∧ n ≤ ExtendedJson.maxSafeInteger) : numeral x = n ↔ x.toRat = n

theorem numerals_toRat : Numerals Double.toRat := ⟨fun _ _ => Iff.rfl, fun _ _ _ => Iff.rfl⟩

def isScalar : Json → Bool
  | array _ | object _ => false
  | _ => true

variable (numeral : Double → ℚ)

def amount? : Json → Option ℚ
  | integer n => some n
  | float x => some (numeral x)
  | _ => none

/-- Equality of scalars. -/
def equals : Json → Json → Bool
  | null, null => true
  | boolean a, boolean b => a == b
  | string a, string b => a == b
  | a, b => (a.amount? numeral).isSome && a.amount? numeral == b.amount? numeral

mutual

/-- Whether a document contains a part. -/
def contains (whole : Json) : Json → Bool
  | array parts =>
    match whole with
    | array items => containsItems items parts
    | _ => false
  | object fields =>
    match whole with
    | object others => containsFields others fields
    | _ => false
  | scalar => equals numeral whole scalar
termination_by structural part => part

def containsItems (items : List Json) : List Json → Bool
  | [] => true
  | part :: parts => items.any (fun item => contains item part) && containsItems items parts
termination_by structural parts => parts

def containsFields (others : List (String × Json)) : List (String × Json) → Bool
  | [] => true
  | (name, part) :: fields =>
    (match OrderedMap.get? others name with
      | some value => contains value part
      | none => false) && containsFields others fields
termination_by structural fields => fields

end

variable {numeral}

theorem containsItems_iff {items parts : List Json} :
    containsItems numeral items parts = true ↔ ∀ part ∈ parts, ∃ item ∈ items, contains numeral item part = true := by
  induction parts with
  | nil => simp [containsItems]
  | cons part parts ih => rw [containsItems, Bool.and_eq_true, ih, List.any_eq_true, List.forall_mem_cons]

theorem containsFields_iff {others fields : List (String × Json)} :
    containsFields numeral others fields = true ↔
      ∀ entry ∈ fields, ∃ value, OrderedMap.get? others entry.1 = some value ∧ contains numeral value entry.2 = true := by
  induction fields with
  | nil => simp [containsFields]
  | cons entry fields ih =>
    rw [containsFields, Bool.and_eq_true, ih, List.forall_mem_cons]
    refine and_congr_left fun _ => ?_
    cases OrderedMap.get? others entry.1 <;> simp

theorem equals_iff {a b : Json} (ha : a.isScalar = true) (hb : b.isScalar = true) :
    equals numeral a b = true ↔ a = b ∨ (a.amount? numeral).isSome = true ∧ a.amount? numeral = b.amount? numeral := by
  cases a with
  | array items => cases ha
  | object fields => cases ha
  | _ =>
    cases b with
    | array items => cases hb
    | object fields => cases hb
    | _ => simp +contextual [equals, amount?]

theorem contains_scalar (whole : Json) {part : Json} (h : part.isScalar = true) :
    contains numeral whole part = equals numeral whole part := by
  cases part with
  | array items => cases h
  | object fields => cases h
  | _ => rfl

theorem contains_of_isScalar {whole : Json} (h : whole.isScalar = true) {part : Json} (hpart : part.isScalar = false) :
    contains numeral whole part = false := by
  cases part with
  | array parts =>
    cases whole with
    | array items => cases h
    | _ => rfl
  | object fields =>
    cases whole with
    | object others => cases h
    | _ => rfl
  | _ => cases hpart

theorem equals_of_not_isScalar {whole : Json} (h : whole.isScalar = false) (part : Json) : equals numeral whole part = false := by
  cases whole with
  | array items => cases part <;> rfl
  | object fields => cases part <;> rfl
  | _ => cases h

end Json

namespace ExtendedJson

open Json (Numerals contains equals containsItems containsFields containsItems_iff containsFields_iff)

variable {numeral : Double → ℚ}

/-! ### Wrappers -/

theorem Tag.name_inj {tag other : Tag} (h : tag.name = other.name) : tag = other := by
  have hname := Tag.ofName?_name tag
  rw [h, Tag.ofName?_name] at hname
  exact (Option.some.inj hname).symm

theorem contains_wrap_iff {others : List (String × Json)} {tag : Tag} {part : Json} :
    contains numeral (.object others) (tag.wrap part) = true ↔
      ∃ value, OrderedMap.get? others tag.name = some value ∧ contains numeral value part = true := by
  rw [Tag.wrap, contains, containsFields_iff, List.forall_mem_singleton]

theorem contains_wraps_iff {tag other : Tag} {whole part : Json} :
    contains numeral (tag.wrap whole) (other.wrap part) = true ↔ tag = other ∧ contains numeral whole part = true := by
  rw [Tag.wrap, contains_wrap_iff, OrderedMap.get?_cons]
  by_cases h : tag = other
  · simp [h]
  · have hname : tag.name ≠ other.name := fun same => h (Tag.name_inj same)
    simp [h, hname]

/-- What is wrapped for a scalar. -/
inductive Payload : Json → Prop where
  | text (text : String) : Payload (.string text)
  | count (text : String) : Payload (Tag.long.wrap (.string text))
  | bytes (text : String) : Payload (.object [(base64Name, .string text), (subTypeName, .string "00")])

theorem Payload.contains_iff {whole part : Json} (hwhole : Payload whole) (hpart : Payload part) :
    contains numeral whole part = true ↔ whole = part := by
  cases hwhole with
  | text text =>
    cases hpart with
    | text other => simp [contains, equals]
    | count other => simp [contains, Tag.wrap]
    | bytes other => simp [contains]
  | count text =>
    cases hpart with
    | text other => simp [contains, equals, Tag.wrap, Json.amount?]
    | count other => rw [contains_wraps_iff]; simp [contains, equals, Tag.wrap]
    | bytes other => simp [contains, containsFields, Tag.wrap, Tag.name, base64Name, OrderedMap.get?]
  | bytes text =>
    cases hpart with
    | text other => simp [contains, equals, Json.amount?]
    | count other => rw [contains_wrap_iff]; simp [Tag.wrap, Tag.name, base64Name, subTypeName, OrderedMap.get?]
    | bytes other => simp [contains, containsFields, equals, base64Name, subTypeName, OrderedMap.get?]

theorem Payload.encodeInstant (t : Instant) : Payload (encodeInstant t) := by
  rw [ExtendedJson.encodeInstant]
  split
  · exact .count _
  · exact .text _

/-- The form of a scalar: a scalar of JSON or a wrapper. -/
inductive Form : Json → Prop where
  | plain {json : Json} (h : json.isScalar = true) : Form json
  | wrapped {tag : Tag} (htag : tag ≠ .object) {payload : Json} (h : Payload payload) : Form (tag.wrap payload)

theorem form_encode {value : Value} (h : value.isScalar = true) : Form (encode value) := by
  cases value with
  | array items => cases h
  | object fields => cases h
  | null | boolean flag | string text => exact .plain rfl
  | integer n =>
    rw [encode]
    split
    · exact .plain rfl
    · exact .wrapped (by decide) (.text _)
  | number x =>
    rw [encode]
    split
    · exact .plain rfl
    · exact .wrapped (by decide) (.text _)
  | timestamp t => exact .wrapped (by decide) (.encodeInstant t)
  | binary bytes => exact .wrapped (by decide) (.bytes _)
  | decimal d => exact .wrapped (by decide) (.text _)
  | date d => exact .wrapped (by decide) (.text _)
  | time t => exact .wrapped (by decide) (.text _)

/-- Among the forms of scalars, containment is equality but for numerals of one number. -/
theorem Form.contains_iff {whole part : Json} (hwhole : Form whole) (hpart : Form part) :
    contains numeral whole part = true ↔
      whole = part ∨ (whole.amount? numeral).isSome = true ∧ whole.amount? numeral = part.amount? numeral := by
  cases hwhole with
  | plain h =>
    cases hpart with
    | plain hother => rw [Json.contains_scalar whole hother, Json.equals_iff h hother]
    | wrapped htag hpayload =>
      rw [Json.contains_of_isScalar h rfl]
      cases whole <;> simp [Tag.wrap, Json.amount?, Json.isScalar] at h ⊢
  | wrapped htag hpayload =>
    cases hpart with
    | plain hother =>
      rw [Json.contains_scalar _ hother, Json.equals_of_not_isScalar rfl]
      cases part <;> simp [Tag.wrap, Json.amount?, Json.isScalar] at hother ⊢
    | wrapped hother hinner =>
      rw [contains_wraps_iff, hpayload.contains_iff hinner]
      constructor
      · rintro ⟨rfl, rfl⟩
        exact Or.inl rfl
      · rintro (hsame | ⟨hamount, -⟩)
        · obtain ⟨hname, hsame⟩ : _ ∧ _ := by
            simpa [Tag.wrap] using hsame
          exact ⟨Tag.name_inj hname, hsame⟩
        · cases hamount

/-! ### Numbers -/

/-- Two values have one form or are both written as scalars of JSON. -/
def SpelledAlike (a b : Value) : Prop := encode a = encode b ∨ (encode a).isScalar = true ∧ (encode b).isScalar = true

/-- Equal numbers inside two values are spelled alike. -/
def SpellsNumbersAlike (whole part : Value) : Prop :=
  ∀ a b, Value.Within a whole → Value.Within b part → a.isNumeric = true → b.isNumeric = true → a.looselyEquals b = true →
    SpelledAlike a b

/-- Whether a value, if it is a number, is a small integer or a finite double. -/
def hasPlainNumber (value : Value) : Bool := !value.isNumeric || (encode value).isScalar

theorem spellsNumbersAlike_of_plain {whole part : Value} (hwhole : whole.everywhere hasPlainNumber = true)
    (hpart : part.everywhere hasPlainNumber = true) : SpellsNumbersAlike whole part := by
  intro a b ha hb hnumericA hnumericB _
  have hplainA := Value.everywhere_iff.mp hwhole a ha
  have hplainB := Value.everywhere_iff.mp hpart b hb
  rw [hasPlainNumber, hnumericA, Bool.not_true, Bool.false_or] at hplainA
  rw [hasPlainNumber, hnumericB, Bool.not_true, Bool.false_or] at hplainB
  exact Or.inr ⟨hplainA, hplainB⟩

theorem amount?_encode_eq_some {value : Value} {p : ℚ} (h : (encode value).amount? numeral = some p) :
    (∃ n : Int64, value = .integer n ∧ (-maxSafeInteger ≤ n.toInt ∧ n.toInt ≤ maxSafeInteger) ∧ p = n.toInt) ∨
      ∃ x, value = .number x ∧ x.isFinite = true ∧ p = numeral x := by
  cases value with
  | integer n =>
    rw [encode] at h
    split at h
    · next hsmall => exact Or.inl ⟨n, rfl, hsmall, (Option.some.inj h).symm⟩
    · cases h
  | number x =>
    rw [encode] at h
    split at h
    · next hfinite => exact Or.inr ⟨x, rfl, hfinite, (Option.some.inj h).symm⟩
    · cases h
  | object fields =>
    rw [encode] at h
    split at h <;> cases h
  | _ => cases h

/-- Numerals are equal if and only if their numbers are. -/
theorem amount?_encode_eq_iff (hnumeral : Numerals numeral) {a b : Value} {p q : ℚ} (ha : (encode a).amount? numeral = some p)
    (hb : (encode b).amount? numeral = some q) :
    ∃ r s, a.rational? = some r ∧ b.rational? = some s ∧ (p = q ↔ r = s) := by
  rcases amount?_encode_eq_some ha with ⟨n, rfl, hn, rfl⟩ | ⟨x, rfl, hx, rfl⟩
  · rcases amount?_encode_eq_some hb with ⟨m, rfl, hm, rfl⟩ | ⟨y, rfl, hy, rfl⟩
    · exact ⟨n.toInt, m.toInt, rfl, rfl, Iff.rfl⟩
    · refine ⟨n.toInt, y.toRat, rfl, if_pos hy, ?_⟩
      rw [eq_comm, hnumeral.eq_whole_iff hy hn, eq_comm]
  · rcases amount?_encode_eq_some hb with ⟨m, rfl, hm, rfl⟩ | ⟨y, rfl, hy, rfl⟩
    · exact ⟨x.toRat, m.toInt, if_pos hx, rfl, hnumeral.eq_whole_iff hx hm⟩
    · exact ⟨x.toRat, y.toRat, if_pos hx, if_pos hy, hnumeral.eq_iff hx hy⟩

theorem exists_amount?_encode (numeral : Double → ℚ) {value : Value} (hnumeric : value.isNumeric = true) (hscalar : (encode value).isScalar = true) :
    ∃ p, (encode value).amount? numeral = some p := by
  cases value with
  | integer n =>
    rw [encode] at hscalar ⊢
    split at hscalar
    · next hsmall => exact ⟨_, by rw [if_pos hsmall]; rfl⟩
    · cases hscalar
  | number x =>
    rw [encode] at hscalar ⊢
    split at hscalar
    · next hfinite => exact ⟨_, by rw [if_pos hfinite]; rfl⟩
    · cases hscalar
  | decimal d => cases hscalar
  | _ => cases hnumeric

/-! ### Scalars with one form -/

/-- Whether a value is a leap second that is written as milliseconds, as the second after it is. -/
def isCountedLeap : Value → Bool
  | .timestamp t => t.inLeapSecond && t.nanos % 1000000 == 0
  | _ => false

theorem kind_canonical (value : Value) : (canonical value).kind = value.kind := by
  cases value <;> rfl

theorem encode_timestamp_ne {value : Value} (hscalar : value.isScalar = true) (hwell : value.wellFormed = true)
    (hkind : value.kind ≠ .timestamp) (t : Instant) : encode (.timestamp t) ≠ encode value := by
  intro h
  have hplain : hasPlainInstant value = true := by
    cases value <;> first | rfl | exact absurd rfl hkind
  have hread : rereadInstant t = canonical value := by
    rw [← decode_encode_timestamp, h, decode_encode_scalar hscalar hwell hplain]
  have hobject : value.kind = .timestamp ∨ value.kind = .object := by
    rw [← kind_canonical, ← hread, rereadInstant]
    split
    · cases t.counted? <;> simp [Value.kind]
    · split <;> simp [Value.kind]
  rcases hobject with hsame | hobject
  · exact hkind hsame
  · cases value <;> simp [Value.kind, Value.isScalar] at hobject hscalar

theorem timestamp_of_kind {value : Value} (h : value.kind = .timestamp) : ∃ t, value = .timestamp t := by
  cases value <;> first | exact ⟨_, rfl⟩ | cases h

/-- Scalars with one form are the same, but for leap seconds. -/
theorem sameScalar_of_encode_eq {a b : Value} (ha : a.isScalar = true) (hb : b.isScalar = true) (hwell : a.wellFormed = true)
    (hwell' : b.wellFormed = true) (hleap : isCountedLeap a = false) (hleap' : isCountedLeap b = false)
    (h : encode a = encode b) : a.sameScalar b = true := by
  by_cases hkind : a.kind = .timestamp
  · obtain ⟨t, rfl⟩ := timestamp_of_kind hkind
    by_cases hkind' : b.kind = .timestamp
    · obtain ⟨u, rfl⟩ := timestamp_of_kind hkind'
      have hform : encodeInstant t = encodeInstant u := by
        simpa [encode, Tag.wrap] using h
      rcases (encodeInstant_eq_iff t u).mp hform with rfl | ⟨hwhole, hwhole', hmillis⟩
      · simp [Value.sameScalar]
      · have hordinary : t.inLeapSecond = false := by
          simpa [isCountedLeap, hwhole] using hleap
        have hordinary' : u.inLeapSecond = false := by
          simpa [isCountedLeap, hwhole'] using hleap'
        have hread := Instant.ofMillis?_millis hordinary hwhole
        rw [hmillis, Instant.ofMillis?_millis hordinary' hwhole', Option.some.injEq] at hread
        simp [Value.sameScalar, hread]
    · exact absurd h (encode_timestamp_ne hb hwell' hkind' t)
  · by_cases hkind' : b.kind = .timestamp
    · obtain ⟨u, rfl⟩ := timestamp_of_kind hkind'
      exact absurd h.symm (encode_timestamp_ne ha hwell hkind u)
    · have hplain {value : Value} (h : value.kind ≠ .timestamp) : hasPlainInstant value = true := by
        cases value <;> first | rfl | exact absurd rfl h
      have hcanonical : canonical a = canonical b := by
        rw [← decode_encode_scalar ha hwell (hplain hkind), h, decode_encode_scalar hb hwell' (hplain hkind')]
      have hsame := same_of_canonical_eq hwell' hcanonical
      rwa [Value.same, Value.eqBy_of_isScalar ha] at hsame

/-! ### Scalars -/

/-- A scalar that is loosely equal is contained, if numbers are spelled alike. -/
theorem contains_scalar_of_looseScalar (hnumeral : Numerals numeral) {a b : Value} (ha : a.isScalar = true) (hb : b.isScalar = true)
    (hspelled : a.isNumeric = true → b.isNumeric = true → SpelledAlike a b) (h : a.looseScalar b = true) :
    contains numeral (encode a) (encode b) = true := by
  rw [(form_encode ha).contains_iff (form_encode hb)]
  rw [Value.looseScalar] at h
  split at h
  case isTrue hnumeric =>
    obtain ⟨hnumericA, hnumericB⟩ := Bool.and_eq_true_iff.mp hnumeric
    rcases hspelled hnumericA hnumericB with hform | ⟨hscalarA, hscalarB⟩
    · exact Or.inl hform
    · obtain ⟨p, hp⟩ := exists_amount?_encode numeral hnumericA hscalarA
      obtain ⟨q, hq⟩ := exists_amount?_encode numeral hnumericB hscalarB
      obtain ⟨r, s, hr, hs, hvalues⟩ := amount?_encode_eq_iff hnumeral hp hq
      rw [Value.compare?_of_rational? hr hs, beq_iff_eq, Option.some.injEq, cmp_eq_eq_iff] at h
      exact Or.inr ⟨by rw [hp]; rfl, by rw [hp, hq, hvalues.mpr h]⟩
  case isFalse hnumeric =>
    exact Or.inl (congrArg encode (Value.eq_of_sameScalar (Bool.eq_false_iff.mpr hnumeric) h))

/-- A scalar that is contained is loosely equal, unless it is a NaN or a leap second. -/
theorem looseScalar_of_contains_scalar (hnumeral : Numerals numeral) {a b : Value} (ha : a.isScalar = true) (hb : b.isScalar = true)
    (hwell : a.wellFormed = true) (hwell' : b.wellFormed = true) (hleap : isCountedLeap a = false)
    (hleap' : isCountedLeap b = false) (hnan : b.isNaN = false) (h : contains numeral (encode a) (encode b) = true) :
    a.looseScalar b = true := by
  rcases ((form_encode ha).contains_iff (form_encode hb)).mp h with hform | ⟨hnumber, hsame⟩
  · have hsame := Value.sameScalar_symm a b (sameScalar_of_encode_eq ha hb hwell hwell' hleap hleap' hform)
    exact Value.looseScalar_symm b a (Value.looseScalar_of_sameScalar hnan hsame)
  · obtain ⟨p, hp⟩ := Option.isSome_iff_exists.mp hnumber
    obtain ⟨r, s, hr, hs, hvalues⟩ := amount?_encode_eq_iff hnumeral hp (hsame ▸ hp)
    obtain rfl := hvalues.mp rfl
    exact Value.looseScalar_of_rational? hr hs

/-! ### Arrays and objects -/

theorem contains_encode_array {items parts : List Value} :
    contains numeral (encode (.array items)) (encode (.array parts)) = true ↔
      ∀ part ∈ parts, ∃ item ∈ items, contains numeral (encode item) (encode part) = true := by
  rw [encode, encode, contains, containsItems_iff, encodeItems_eq_map, encodeItems_eq_map]
  simp

theorem containsFields_encodeFields {others fields : List (String × Value)} :
    containsFields numeral (encodeFields others) (encodeFields fields) = true ↔
      ∀ entry ∈ fields, ∃ other, OrderedMap.get? others entry.1 = some other ∧
        contains numeral (encode other) (encode entry.2) = true := by
  rw [containsFields_iff, encodeFields_eq_map, encodeFields_eq_map, List.forall_mem_map]
  refine forall₂_congr fun entry _ => ?_
  rw [OrderedMap.get?_map]
  simp

theorem eq_singleton_of_looksWrapped {α : Type} {fields : List (String × α)} (h : looksWrapped fields = true) :
    ∃ name value, fields = [(name, value)] ∧ (Tag.ofName? name).isSome = true := by
  match fields with
  | [(name, value)] => exact ⟨name, value, rfl, h⟩

theorem not_containsFields_of_ne {name other : String} {value part : Json} (h : name ≠ other) :
    ¬containsFields numeral [(name, value)] [(other, part)] = true := by
  simp [containsFields, OrderedMap.get?, h]

theorem ne_of_ofName? {name other : String} (h : (Tag.ofName? name).isSome = true) (hother : Tag.ofName? other = none) : name ≠ other := by
  rintro rfl
  rw [hother] at h
  cases h

theorem isSome_ofName?_name (tag : Tag) : (Tag.ofName? tag.name).isSome = true := by
  rw [Tag.ofName?_name, Option.isSome_some]

/-- Objects of one size are contained name by name, whether or not they look like wrappers. -/
theorem contains_encode_object {others fields : List (String × Value)} (hlength : others.length = fields.length) :
    contains numeral (encode (.object others)) (encode (.object fields)) = true ↔
      ∀ entry ∈ fields, ∃ other, OrderedMap.get? others entry.1 = some other ∧
        contains numeral (encode other) (encode entry.2) = true := by
  rw [← containsFields_encodeFields, encode, encode]
  cases hothers : looksWrapped others with
  | true =>
    obtain ⟨name, value, rfl, hname⟩ := eq_singleton_of_looksWrapped hothers
    cases hfields : looksWrapped fields with
    | true =>
      rw [if_pos rfl, if_pos rfl, contains_wraps_iff, contains]
      exact and_iff_right rfl
    | false =>
      obtain ⟨⟨other, part⟩, rfl⟩ := List.length_eq_one_iff.mp hlength.symm
      have hother : Tag.ofName? other = none := by
        simpa [looksWrapped] using hfields
      exact iff_of_false (not_containsFields_of_ne (ne_of_ofName? (isSome_ofName?_name .object) hother))
        (not_containsFields_of_ne (ne_of_ofName? hname hother))
  | false =>
    cases hfields : looksWrapped fields with
    | true =>
      obtain ⟨other, part, rfl, hother⟩ := eq_singleton_of_looksWrapped hfields
      obtain ⟨⟨name, value⟩, rfl⟩ := List.length_eq_one_iff.mp hlength
      have hname : Tag.ofName? name = none := by
        simpa [looksWrapped] using hothers
      exact iff_of_false (not_containsFields_of_ne (ne_of_ofName? (isSome_ofName?_name .object) hname).symm)
        (not_containsFields_of_ne (ne_of_ofName? hother hname).symm)
    | false => rw [if_neg Bool.false_ne_true, if_neg Bool.false_ne_true, contains]

/-! ### Values of different shapes -/

theorem array_of_encode {value : Value} {items : List Json} (h : encode value = .array items) : ∃ values, value = .array values := by
  cases value with
  | array values => exact ⟨values, rfl⟩
  | integer n | number x | object fields =>
    rw [encode] at h
    split at h <;> cases h
  | _ => cases h

theorem array_of_contains {whole : Value} {parts : List Value} (h : contains numeral (encode whole) (encode (.array parts)) = true) :
    ∃ items, whole = .array items := by
  change contains numeral (encode whole) (.array (encodeItems parts)) = true at h
  cases hform : encode whole with
  | array items => exact array_of_encode hform
  | _ =>
    rw [hform] at h
    cases h

theorem not_contains_array {items : List Json} {part : Value} (hpart : ∀ parts, part ≠ .array parts) :
    contains numeral (.array items) (encode part) = false := by
  cases part with
  | array parts => exact absurd rfl (hpart parts)
  | integer n | number x | object fields =>
    rw [encode]
    split <;> rfl
  | _ => rfl

/-- Whether an object passes for a wrapped scalar: the name of a tag is among its names, but not alone. -/
def posesAsScalar {α : Type} (fields : List (String × α)) : Bool :=
  !looksWrapped fields && fields.any fun entry => (Tag.ofName? entry.1).isSome

theorem not_contains_scalar {fields : List (String × Value)} (hposes : posesAsScalar fields = false) {part : Value}
    (hpart : part.isScalar = true) : contains numeral (encode (.object fields)) (encode part) = false := by
  have hform := form_encode hpart
  generalize encode part = json at hform
  cases hform with
  | plain hplain =>
    rw [Json.contains_scalar _ hplain, encode]
    split <;> exact Json.equals_of_not_isScalar rfl _
  | wrapped htag hpayload =>
    rw [Bool.eq_false_iff, encode]
    split
    · rw [Ne, contains_wraps_iff]
      exact fun h => htag h.1.symm
    · next hlooks =>
      rw [Ne, contains_wrap_iff, encodeFields_eq_map]
      rintro ⟨value, hvalue, -⟩
      rw [OrderedMap.get?_map, Option.map_eq_some_iff] at hvalue
      obtain ⟨found, hfound, -⟩ := hvalue
      have hany : fields.any (fun entry => (Tag.ofName? entry.1).isSome) = true :=
        List.any_eq_true.mpr ⟨_, OrderedMap.mem_of_get? hfound, isSome_ofName?_name _⟩
      rw [posesAsScalar, hany, Bool.and_true, Bool.not_eq_false'] at hposes
      exact hlooks hposes

theorem not_contains_object {whole : Value} (hwhole : whole.isScalar = true) {fields : List (String × Value)}
    (hdistinct : OrderedMap.Distinct fields) (hne : fields ≠ []) :
    contains numeral (encode whole) (encode (.object fields)) = false := by
  have hform := form_encode hwhole
  generalize encode whole = json at hform
  rw [encode]
  cases hform with
  | plain hplain => split <;> exact Json.contains_of_isScalar hplain rfl
  | @wrapped tag htag payload hpayload =>
    rw [Bool.eq_false_iff]
    split
    · rw [Ne, contains_wraps_iff]
      exact fun h => htag h.1
    · next hlooks =>
      intro h
      rw [Tag.wrap, contains, containsFields_iff, encodeFields_eq_map, List.forall_mem_map] at h
      have hnames : ∀ entry ∈ fields, entry.1 = tag.name := by
        intro entry hentry
        obtain ⟨value, hvalue, -⟩ := h entry hentry
        by_contra hother
        simp [OrderedMap.get?, Ne.symm hother] at hvalue
      -- all names are that of the tag, so there is only one
      cases fields with
      | nil => exact hne rfl
      | cons first rest =>
        cases rest with
        | nil =>
          obtain ⟨name, value⟩ := first
          obtain rfl := hnames (name, value) List.mem_cons_self
          exact hlooks (isSome_ofName?_name tag)
        | cons second rest =>
          have hsame : first.1 = second.1 :=
            (hnames first List.mem_cons_self).trans (hnames second (List.mem_cons_of_mem _ List.mem_cons_self)).symm
          exact (List.nodup_cons.mp hdistinct).1 (by simp [hsame])

/-! ### Loose equality and containment -/

mutual

/-- Whether a part cannot be contained for its outline alone: an array has one item at most, and the other one as many; an object has as many names as the other one, and with scalars neither is it empty nor does it pass for one. -/
def sameOutline (whole : Value) : Value → Bool
  | .array parts =>
    match whole with
    | .array items => itemsSameOutline items parts
    | _ => true
  | .object fields =>
    match whole with
    | .object others => others.length == fields.length && fieldsSameOutline others fields
    | .array _ => true
    | _ => !fields.isEmpty
  | _ =>
    match whole with
    | .object others => !posesAsScalar others
    | _ => true
termination_by structural part => part

def itemsSameOutline (items : List Value) : List Value → Bool
  | [] => items.isEmpty
  | part :: parts =>
    parts.isEmpty && match items with
      | [item] => sameOutline item part
      | _ => false
termination_by structural parts => parts

def fieldsSameOutline (others : List (String × Value)) : List (String × Value) → Bool
  | [] => true
  | (name, part) :: fields =>
    (match OrderedMap.get? others name with
      | some other => sameOutline other part
      | none => true) && fieldsSameOutline others fields
termination_by structural fields => fields

end

theorem sameOutline_scalar {part : Value} (h : part.isScalar = true) (others : List (String × Value)) :
    sameOutline (.object others) part = !posesAsScalar others := by
  cases part <;> first | rfl | cases h

theorem singletons_of_itemsSameOutline {items parts : List Value} (h : itemsSameOutline items parts = true) :
    items = [] ∧ parts = [] ∨ ∃ item part, items = [item] ∧ parts = [part] ∧ sameOutline item part = true := by
  cases parts with
  | nil => exact Or.inl ⟨List.isEmpty_iff.mp h, rfl⟩
  | cons part parts =>
    match items with
    | [item] =>
      rw [itemsSameOutline, Bool.and_eq_true, List.isEmpty_iff] at h
      obtain ⟨rfl, hinner⟩ := h
      exact Or.inr ⟨item, part, rfl, rfl, hinner⟩
    | [] | _ :: _ :: _ => simp [itemsSameOutline] at h

theorem fieldsSameOutline_iff {others fields : List (String × Value)} :
    fieldsSameOutline others fields = true ↔
      ∀ entry ∈ fields, ∀ other, OrderedMap.get? others entry.1 = some other → sameOutline other entry.2 = true := by
  induction fields with
  | nil => simp [fieldsSameOutline]
  | cons entry fields ih =>
    rw [fieldsSameOutline, Bool.and_eq_true, ih, List.forall_mem_cons]
    refine and_congr_left fun _ => ?_
    cases OrderedMap.get? others entry.1 <;> simp

/-- What is loosely equal is contained, if equal numbers are spelled alike. -/
theorem contains_of_looselyEquals (hnumeral : Numerals numeral) {whole part : Value} (hwell : whole.wellFormed = true)
    (hwell' : part.wellFormed = true)
    (hspelled : SpellsNumbersAlike whole part) (h : whole.looselyEquals part = true) : contains numeral (encode whole) (encode part) = true := by
  induction part using Value.nestedInduction generalizing whole with
  | scalar part hscalar =>
    have hwhole := Value.isScalar_of_looselyEquals hscalar h
    have hloose := h
    rw [Value.looselyEquals_of_isScalar hwhole] at hloose
    exact contains_scalar_of_looseScalar hnumeral hwhole hscalar
      (fun ha hb => hspelled whole part (.self whole) (.self part) ha hb h) hloose
  | array parts ih =>
    obtain ⟨items, rfl⟩ := Value.array_of_looselyEquals h
    obtain ⟨-, hitems⟩ := Value.everywhere_array_iff.mp hwell
    obtain ⟨-, hparts⟩ := Value.everywhere_array_iff.mp hwell'
    rw [Value.looselyEquals, Value.eqBy, Value.itemsEqBy_iff] at h
    rw [contains_encode_array]
    intro part hpart
    obtain ⟨item, hitem, hsame⟩ := exists_left_of_forall₂ h hpart
    exact ⟨item, hitem, ih part hpart (hitems item hitem) (hparts part hpart)
      (fun a b ha hb => hspelled a b (.item hitem ha) (.item hpart hb)) hsame⟩
  | object fields ih =>
    obtain ⟨others, rfl⟩ := Value.object_of_looselyEquals h
    obtain ⟨hdistinct, hothers⟩ := Value.wellFormed_object_iff.mp hwell
    obtain ⟨-, hfields⟩ := Value.wellFormed_object_iff.mp hwell'
    rw [Value.looselyEquals, Value.eqBy, Bool.and_eq_true, beq_iff_eq, Value.fieldsEqBy_iff] at h
    rw [contains_encode_object h.1]
    intro entry hentry
    obtain ⟨other, hother, hsame⟩ :=
      OrderedMap.matched_of_matched hdistinct h.1 (fun whole part => whole.looselyEquals part = true) h.2 entry hentry
    have hmem := OrderedMap.mem_of_get? hother
    exact ⟨other, hother, ih entry hentry (hothers _ hmem) (hfields entry hentry)
      (fun a b ha hb => hspelled a b (.field hmem ha) (.field hentry hb)) hsame⟩

/-- Whether no leap second inside a value is written as milliseconds. -/
def lacksCountedLeap (value : Value) : Bool := value.everywhere fun inner => !isCountedLeap inner

/-- A well-formed value without such leap seconds. -/
structure Ordinary (value : Value) : Prop where
  wellFormed : value.wellFormed = true
  leaps : lacksCountedLeap value = true

theorem Ordinary.not_isCountedLeap {value : Value} (h : Ordinary value) : isCountedLeap value = false := by
  simpa using Value.test_of_everywhere h.leaps

theorem Ordinary.item {items : List Value} (h : Ordinary (.array items)) {item : Value} (hitem : item ∈ items) : Ordinary item :=
  ⟨(Value.everywhere_array_iff.mp h.wellFormed).2 item hitem, (Value.everywhere_array_iff.mp h.leaps).2 item hitem⟩

theorem Ordinary.distinct {fields : List (String × Value)} (h : Ordinary (.object fields)) : OrderedMap.Distinct fields :=
  (Value.wellFormed_object_iff.mp h.wellFormed).1

theorem Ordinary.field {fields : List (String × Value)} (h : Ordinary (.object fields)) {entry : String × Value}
    (hentry : entry ∈ fields) : Ordinary entry.2 :=
  ⟨(Value.wellFormed_object_iff.mp h.wellFormed).2 entry hentry, (Value.everywhere_object_iff.mp h.leaps).2 entry hentry⟩

/-- What is contained is loosely equal, if the outlines are the same and no two scalars have a form in common. -/
theorem looselyEquals_of_contains (hnumeral : Numerals numeral) {whole part : Value} (hwhole : Ordinary whole)
    (hpart : Ordinary part) (hnan : part.lacksNaN = true) (houtline : sameOutline whole part = true)
    (h : contains numeral (encode whole) (encode part) = true) : whole.looselyEquals part = true := by
  induction part using Value.nestedInduction generalizing whole with
  | scalar part hscalar =>
    cases whole with
    | array items =>
      rw [encode, not_contains_array fun parts hparts => by rw [hparts] at hscalar; cases hscalar] at h
      cases h
    | object others =>
      rw [sameOutline_scalar hscalar, Bool.not_eq_true'] at houtline
      rw [not_contains_scalar houtline hscalar] at h
      cases h
    | _ =>
      rw [Value.looselyEquals_of_isScalar rfl]
      exact looseScalar_of_contains_scalar hnumeral rfl hscalar hwhole.wellFormed hpart.wellFormed hwhole.not_isCountedLeap
        hpart.not_isCountedLeap (by simpa using Value.test_of_everywhere hnan) h
  | array parts ih =>
    obtain ⟨items, rfl⟩ := array_of_contains h
    obtain ⟨-, hnans⟩ := Value.everywhere_array_iff.mp hnan
    rw [contains_encode_array] at h
    rcases singletons_of_itemsSameOutline houtline with ⟨rfl, rfl⟩ | ⟨item, part, rfl, rfl, hinner⟩
    · rfl
    · have hmem : part ∈ [part] := List.mem_cons_self
      obtain ⟨found, hfound, hcontains⟩ := h part hmem
      obtain rfl := List.mem_singleton.mp hfound
      have hsame := ih part hmem (hwhole.item hfound) (hpart.item hmem) (hnans part hmem) hinner hcontains
      rw [Value.looselyEquals, Value.eqBy, Value.itemsEqBy, Value.itemsEqBy, Bool.and_true]
      exact hsame
  | object fields ih =>
    cases whole with
    | array items =>
      rw [encode, not_contains_array fun parts hparts => by cases hparts] at h
      cases h
    | object others =>
      obtain ⟨-, hnans⟩ := Value.everywhere_object_iff.mp hnan
      rw [sameOutline, Bool.and_eq_true, beq_iff_eq, fieldsSameOutline_iff] at houtline
      obtain ⟨hlength, hinner⟩ := houtline
      rw [contains_encode_object hlength] at h
      have hmatched : ∀ entry ∈ fields, ∃ other, OrderedMap.get? others entry.1 = some other ∧
          other.looselyEquals entry.2 = true := by
        intro entry hentry
        obtain ⟨other, hother, hcontains⟩ := h entry hentry
        have hordinary := hwhole.field (OrderedMap.mem_of_get? hother)
        exact ⟨other, hother, ih entry hentry hordinary (hpart.field hentry) (hnans entry hentry) (hinner entry hentry other hother)
          hcontains⟩
      rw [Value.looselyEquals, Value.eqBy, Bool.and_eq_true, beq_iff_eq, Value.fieldsEqBy_iff]
      exact ⟨hlength, OrderedMap.matched_of_matched hpart.distinct hlength.symm
        (fun part whole => whole.looselyEquals part = true) hmatched⟩
    | _ =>
      have hne : fields ≠ [] := by
        rintro rfl
        cases houtline
      rw [not_contains_object rfl hpart.distinct hne] at h
      cases h

/-- What it takes that a value contains another one only if they are loosely equal, and always then. -/
structure Comparable (whole part : Value) : Prop where
  spelled : SpellsNumbersAlike whole part
  outline : sameOutline whole part = true
  ordinary : lacksCountedLeap whole = true ∧ lacksCountedLeap part = true
  numbers : part.lacksNaN = true

theorem Comparable.contains_iff (hnumeral : Numerals numeral) {whole part : Value} (h : Comparable whole part)
    (hwell : whole.wellFormed = true) (hwell' : part.wellFormed = true) :
    contains numeral (encode whole) (encode part) = true ↔ whole.looselyEquals part = true :=
  ⟨looselyEquals_of_contains hnumeral ⟨hwell, h.ordinary.1⟩ ⟨hwell', h.ordinary.2⟩ h.numbers h.outline,
    contains_of_looselyEquals hnumeral hwell hwell' h.spelled⟩

end ExtendedJson

end ObjectStore
