import ObjectStore.ExtendedJson
import ObjectStore.Proofs.Calendar.Text
import ObjectStore.Proofs.Number.DecimalText
import ObjectStore.Proofs.Number.Double
import ObjectStore.Proofs.OrderedMap
import ObjectStore.Proofs.Text.Base64
import ObjectStore.Proofs.Value.Induction
import ObjectStore.Proofs.Value.Order

/-!
# Extended JSON read back

The reader of a value's JSON form gives its canonical value, which is the value itself up to what its kind does not tell apart: all NaNs are one, and a decimal is the one that its text spells. Canonical values are written as the values are, and values with one canonical value are equal; the round trip, the same text at the second writing and the distinct texts of distinct values follow.
-/

namespace ObjectStore

namespace ExtendedJson

theorem Tag.ofName?_name (tag : Tag) : Tag.ofName? tag.name = some tag := by
  cases tag <;> rfl

/-! ### Lists -/

theorem encodeItems_eq_map (items : List Value) : encodeItems items = items.map encode := by
  induction items with
  | nil => rfl
  | cons item items ih => rw [encodeItems, ih, List.map_cons]

theorem encodeFields_eq_map (fields : List (String × Value)) :
    encodeFields fields = fields.map fun entry => (entry.1, encode entry.2) := by
  induction fields with
  | nil => rfl
  | cons entry fields ih => rw [encodeFields, ih, List.map_cons]

theorem decodeItems_eq_map (items : List Json) : decodeItems items = items.map decode := by
  induction items with
  | nil => rfl
  | cons item items ih => rw [decodeItems, ih, List.map_cons]

theorem decodeFields_eq_map (fields : List (String × Json)) :
    decodeFields fields = fields.map fun entry => (entry.1, decode entry.2) := by
  induction fields with
  | nil => rfl
  | cons entry fields ih => rw [decodeFields, ih, List.map_cons]

theorem mapFields_congr {α : Type} (f g : Value → α) {fields : List (String × Value)}
    (h : ∀ entry ∈ fields, f entry.2 = g entry.2) :
    (fields.map fun entry => (entry.1, f entry.2)) = fields.map fun entry => (entry.1, g entry.2) :=
  List.map_congr_left fun entry hentry => congrArg (Prod.mk entry.1) (h entry hentry)

/-! ### Wrappers -/

theorem decode_wrap {tag : Tag} {payload : Json} {value : Value} (h : unwrap? tag payload = some value) :
    decode (tag.wrap payload) = value := by
  cases payload with
  | object inner =>
    rw [Tag.wrap, decode, Tag.ofName?_name]
    cases tag with
    | object => cases h
    | _ => simp only [h, Option.getD_some]
  | _ =>
    rw [Tag.wrap, decode, Tag.ofName?_name, Option.bind_some, h, Option.getD_some]
    intro inner hinner
    cases hinner

theorem decode_wrap_escaped (inner : List (String × Json)) :
    decode (Tag.object.wrap (.object inner)) = .object (decodeFields inner) := by
  rw [Tag.wrap, decode, Tag.ofName?_name]

theorem decode_object {fields : List (String × Json)} (h : looksWrapped fields = false) :
    decode (.object fields) = .object (decodeFields fields) := by
  match fields with
  | [] => rfl
  | [(name, payload)] =>
    have hname : Tag.ofName? name = none := by
      simpa [looksWrapped] using h
    cases payload with
    | object inner =>
      rw [decode, hname]
      rfl
    | _ => simp [decode, decodeFields, hname]
  | _ :: _ :: _ => rw [decode] <;> simp

theorem looksWrapped_map {α β : Type} (f : α → β) (fields : List (String × α)) :
    looksWrapped (fields.map fun entry => (entry.1, f entry.2)) = looksWrapped fields := by
  match fields with
  | [] | [_] | _ :: _ :: _ => rfl

/-! ### Canonical values -/

mutual

/-- The value that is read from the JSON form of a value. -/
def canonical : Value → Value
  | .number x => .number x.canonical
  | .decimal d => .decimal d.printed
  | .array items => .array (canonicalItems items)
  | .object fields => .object (canonicalFields fields)
  | scalar => scalar
termination_by structural value => value

def canonicalItems : List Value → List Value
  | [] => []
  | item :: items => canonical item :: canonicalItems items
termination_by structural items => items

def canonicalFields : List (String × Value) → List (String × Value)
  | [] => []
  | (key, value) :: fields => (key, canonical value) :: canonicalFields fields
termination_by structural fields => fields

end

theorem canonicalItems_eq_map (items : List Value) : canonicalItems items = items.map canonical := by
  induction items with
  | nil => rfl
  | cons item items ih => rw [canonicalItems, ih, List.map_cons]

theorem canonicalFields_eq_map (fields : List (String × Value)) :
    canonicalFields fields = fields.map fun entry => (entry.1, canonical entry.2) := by
  induction fields with
  | nil => rfl
  | cons entry fields ih => rw [canonicalFields, ih, List.map_cons]

/-- Whether an instant outside leap seconds has whole milliseconds or a year of four digits. -/
def hasPlainInstant : Value → Bool
  | .timestamp t => !t.inLeapSecond && (t.nanos % 1000000 == 0 || (0 ≤ t.civil.1 && t.civil.1 ≤ 9999))
  | _ => true

/-! ### Reading scalars -/

theorem ofInt_toInt (n : Int64) : Value.ofInt n.toInt = .integer n := by
  rw [Value.ofInt, int64?_toInt]

theorem instant?_encodeInstant {t : Instant} (h : hasPlainInstant (.timestamp t) = true) :
    instant? (encodeInstant t) = some t := by
  simp only [hasPlainInstant, Bool.and_eq_true, Bool.or_eq_true, Bool.not_eq_true', beq_iff_eq, decide_eq_true_eq] at h
  obtain ⟨hleap, hplain⟩ := h
  rw [encodeInstant]
  by_cases hwhole : t.nanos % 1000000 = 0
  · obtain ⟨n, hn⟩ := t.exists_toInt_eq_millis
    rw [if_pos hwhole, ← hn, Tag.wrap, instant?, if_pos rfl, Numeral.int64?_toString, Option.bind_some, hn]
    exact Instant.ofMillis?_millis hleap hwhole
  · rw [if_neg hwhole, instant?]
    exact Instant.ofText?_toText (hplain.resolve_left hwhole)

theorem bytes?_encoded (bytes : List UInt8) :
    bytes? [(base64Name, .string (String.ofList (Base64.encode bytes))), (subTypeName, .string "00")] = some bytes := by
  have htext : OrderedMap.get? [(base64Name, Json.string (String.ofList (Base64.encode bytes))), (subTypeName, .string "00")]
      base64Name = some (.string (String.ofList (Base64.encode bytes))) := rfl
  have hsubType : OrderedMap.get? [(base64Name, Json.string (String.ofList (Base64.encode bytes))), (subTypeName, .string "00")]
      subTypeName = some (.string "00") := rfl
  rw [bytes?, htext, hsubType]
  simp [Json.string?, Base64.decode?_encode]

/-- A double that JSON cannot write is read back from its word, as the one NaN if it is a NaN. -/
theorem double?_nonFiniteWord {x : Double} (h : x.isFinite = false) : double? (nonFiniteWord x) = some x.canonical := by
  cases hnan : x.isNaN with
  | true =>
    rw [x.canonical_of_isNaN hnan, nonFiniteWord, if_pos hnan]
    rfl
  | false =>
    have hinfinity := Double.eq_infinity h hnan
    rw [Double.canonical_of_not_isNaN hnan, hinfinity]
    cases x.negative <;> rfl

theorem decode_encode_scalar {value : Value} (hscalar : value.isScalar = true) (hwell : value.wellFormed = true)
    (hplain : hasPlainInstant value = true) : decode (encode value) = canonical value := by
  cases value with
  | array items => cases hscalar
  | object fields => cases hscalar
  | null | boolean flag | string text => rfl
  | integer n =>
    rw [encode]
    split
    · rw [decode, ofInt_toInt]
      rfl
    · apply decode_wrap
      rw [unwrap?, Numeral.int64?_toString]
      rfl
  | number x =>
    rw [encode, canonical]
    cases hfinite : x.isFinite with
    | true =>
      rw [if_pos rfl, decode, Double.canonical_of_not_isNaN (Double.isNaN_of_isFinite hfinite)]
    | false =>
      rw [if_neg Bool.false_ne_true]
      apply decode_wrap
      rw [unwrap?, double?_nonFiniteWord hfinite]
      rfl
  | decimal d =>
    apply decode_wrap
    rw [unwrap?, Decimal.ofText?_toText (Value.test_of_everywhere hwell)]
    rfl
  | timestamp t =>
    apply decode_wrap
    rw [unwrap?, instant?_encodeInstant hplain]
    rfl
  | date d =>
    apply decode_wrap
    rw [unwrap?, d.ofText?_toText]
    rfl
  | time t =>
    apply decode_wrap
    rw [unwrap?, t.ofText?_toText]
    rfl
  | binary bytes =>
    apply decode_wrap
    rw [unwrap?, bytes?_encoded]
    rfl

/-! ### Reading all values -/

/-- The reader gives the canonical value, whatever an object looks like. -/
theorem decode_encode {value : Value} (hwell : value.wellFormed = true) (hplain : value.everywhere hasPlainInstant = true) :
    decode (encode value) = canonical value := by
  induction value using Value.nestedInduction with
  | scalar value hscalar => exact decode_encode_scalar hscalar hwell (Value.test_of_everywhere hplain)
  | array items ih =>
    rw [Value.wellFormed, Value.everywhere_array_iff] at hwell
    rw [Value.everywhere_array_iff] at hplain
    rw [encode, decode, canonical, encodeItems_eq_map, decodeItems_eq_map, canonicalItems_eq_map, List.map_map]
    congr 1
    exact List.map_congr_left fun item hitem => ih item hitem (hwell.2 item hitem) (hplain.2 item hitem)
  | object fields ih =>
    rw [Value.wellFormed, Value.everywhere_object_iff] at hwell
    rw [Value.everywhere_object_iff] at hplain
    have hfields : decodeFields (encodeFields fields) = canonicalFields fields := by
      rw [encodeFields_eq_map, decodeFields_eq_map, canonicalFields_eq_map, List.map_map]
      exact mapFields_congr (decode ∘ encode) canonical fun entry hentry =>
        ih entry hentry (hwell.2 entry hentry) (hplain.2 entry hentry)
    rw [encode, canonical, ← hfields]
    cases hlooks : looksWrapped fields with
    | true =>
      rw [if_pos rfl]
      exact decode_wrap_escaped (encodeFields fields)
    | false =>
      rw [if_neg Bool.false_ne_true]
      apply decode_object
      rw [encodeFields_eq_map, looksWrapped_map, hlooks]

/-! ### Canonical values are written and told apart as the values are -/

theorem encode_of_isNaN {x : Double} (h : x.isNaN = true) : encode (.number x) = Tag.double.wrap (.string "NaN") := by
  rw [encode, Double.isFinite_of_isNaN h, nonFiniteWord, if_neg Bool.false_ne_true, if_pos h]

theorem encode_canonical (value : Value) : encode (canonical value) = encode value := by
  induction value using Value.nestedInduction with
  | scalar value hscalar =>
    cases value with
    | array items => cases hscalar
    | object fields => cases hscalar
    | number x =>
      cases hnan : x.isNaN with
      | true =>
        rw [canonical, Double.canonical_of_isNaN hnan, encode_of_isNaN Double.isNaN_nan, encode_of_isNaN hnan]
      | false => rw [canonical, Double.canonical_of_not_isNaN hnan]
    | decimal d => rw [canonical, encode, encode, Decimal.toText_printed]
    | _ => rfl
  | array items ih =>
    rw [canonical, encode, encode, canonicalItems_eq_map, encodeItems_eq_map, encodeItems_eq_map, List.map_map]
    congr 1
    exact List.map_congr_left ih
  | object fields ih =>
    have hfields : encodeFields (canonicalFields fields) = encodeFields fields := by
      rw [canonicalFields_eq_map, encodeFields_eq_map, encodeFields_eq_map, List.map_map]
      exact mapFields_congr (encode ∘ canonical) encode ih
    have hlooks : looksWrapped (canonicalFields fields) = looksWrapped fields := by
      rw [canonicalFields_eq_map, looksWrapped_map]
    rw [canonical, encode, encode, hfields, hlooks]

theorem canonical_canonical (value : Value) : canonical (canonical value) = canonical value := by
  induction value using Value.nestedInduction with
  | scalar value hscalar =>
    cases value with
    | array items => cases hscalar
    | object fields => cases hscalar
    | number x => rw [canonical, canonical, Double.canonical_canonical]
    | decimal d => rw [canonical, canonical, Decimal.printed_printed]
    | _ => rfl
  | array items ih =>
    rw [canonical, canonical, canonicalItems_eq_map, canonicalItems_eq_map, List.map_map]
    congr 1
    exact List.map_congr_left ih
  | object fields ih =>
    rw [canonical, canonical, canonicalFields_eq_map, canonicalFields_eq_map, List.map_map]
    congr 1
    exact mapFields_congr (canonical ∘ canonical) canonical ih

theorem same_of_canonical_eq {v w : Value} (hwell : w.wellFormed = true) (h : canonical v = canonical w) :
    Value.same v w = true := by
  induction v using Value.nestedInduction generalizing w with
  | scalar v hscalar =>
    cases v with
    | array items => cases hscalar
    | object fields => cases hscalar
    | number x =>
      cases w with
      | number y =>
        have hbits : x.canonicalBits = y.canonicalBits := congrArg Double.bits (Value.number.inj h)
        exact beq_iff_eq.mpr hbits
      | _ => cases h
    | decimal d =>
      cases w with
      | decimal e => exact Decimal.same_of_printed_eq (Value.decimal.inj h)
      | _ => cases h
    | null | boolean | string | integer | timestamp | date | time | binary =>
      cases w <;> cases h
      simp [Value.same, Value.eqBy, Value.sameScalar]
  | array items ih =>
    obtain ⟨others, rfl, hitems⟩ : ∃ others, w = .array others ∧ canonicalItems items = canonicalItems others := by
      cases w with
      | array others => exact ⟨others, rfl, Value.array.inj h⟩
      | _ => cases h
    obtain ⟨-, hinner⟩ := Value.everywhere_array_iff.mp hwell
    rw [canonicalItems_eq_map, canonicalItems_eq_map] at hitems
    rw [Value.same, Value.eqBy]
    exact Value.itemsEqBy_of_map_eq hitems fun item hitem other hother hsame => ih item hitem (hinner other hother) hsame
  | object fields ih =>
    obtain ⟨others, rfl, hfields⟩ : ∃ others, w = .object others ∧ canonicalFields fields = canonicalFields others := by
      cases w with
      | object others => exact ⟨others, rfl, Value.object.inj h⟩
      | _ => cases h
    obtain ⟨hdistinct, hinner⟩ := Value.everywhere_object_iff.mp hwell
    rw [canonicalFields_eq_map, canonicalFields_eq_map] at hfields
    have hlength : fields.length = others.length := by
      simpa using congrArg List.length hfields
    have hsame : Value.fieldsEqBy Value.sameScalar fields others = true := by
      apply Value.fieldsEqBy_of_forall
      intro entry hentry
      have hmem : (entry.1, canonical entry.2) ∈ others.map fun entry => (entry.1, canonical entry.2) := by
        rw [← hfields]
        exact List.mem_map.mpr ⟨entry, hentry, rfl⟩
      obtain ⟨⟨name, other⟩, hother, hpair⟩ := List.mem_map.mp hmem
      obtain ⟨hname, hcanonical⟩ := Prod.mk.inj hpair
      refine ⟨other, ?_, ih entry hentry (hinner _ hother) hcanonical.symm⟩
      have hnames : (OrderedMap.keys others).Nodup := of_decide_eq_true hdistinct
      rw [← hname]
      exact OrderedMap.get?_of_mem hnames hother
    rw [Value.same, Value.eqBy, hsame, Bool.and_true, beq_iff_eq]
    exact hlength

/-! ### The round trip -/

theorem same_decode_encode {v : Value} (hwell : v.wellFormed = true) (hplain : v.everywhere hasPlainInstant = true) :
    Value.same (decode (encode v)) v = true := by
  rw [decode_encode hwell hplain]
  exact same_of_canonical_eq hwell (canonical_canonical v)

theorem encode_decode_encode {v : Value} (hwell : v.wellFormed = true) (hplain : v.everywhere hasPlainInstant = true) :
    encode (decode (encode v)) = encode v := by
  rw [decode_encode hwell hplain, encode_canonical]

theorem same_of_encode_eq {v w : Value} (hv : v.wellFormed = true) (hw : w.wellFormed = true)
    (hplain : v.everywhere hasPlainInstant = true) (hplain' : w.everywhere hasPlainInstant = true)
    (h : encode v = encode w) : Value.same v w = true := by
  apply same_of_canonical_eq hw
  rw [← decode_encode hv hplain, ← decode_encode hw hplain', h]

end ExtendedJson

namespace ColumnJson

/-- An array or an object is kept by its column. -/
theorem decode_encode {v : Value} (hwell : v.wellFormed = true) (hplain : v.everywhere ExtendedJson.hasPlainInstant = true)
    (hkind : v.kind = .array ∨ v.kind = .object) :
    ∃ json w, encode v = .ok json ∧ decode json = .ok w ∧ Value.same w v = true := by
  have hsame := ExtendedJson.same_decode_encode hwell hplain
  refine ⟨ExtendedJson.encode v, ExtendedJson.decode (ExtendedJson.encode v), ?_, ?_, hsame⟩
  · cases v with
    | array | object => rfl
    | _ => simp [Value.kind] at hkind
  · rw [decode]
    rw [ExtendedJson.decode_encode hwell hplain]
    cases v with
    | array | object => rfl
    | _ => simp [Value.kind] at hkind

end ColumnJson

namespace ExtendedJson

/-- A value is read back from its JSON form, and the value that was read has the very same form. So values with one form are equal, and an array or an object is kept by a JSON column. -/
theorem encode_reads_back {v : Value} (hwell : v.wellFormed = true) (hplain : v.everywhere hasPlainInstant = true) :
    Value.same (decode (encode v)) v = true ∧
      encode (decode (encode v)) = encode v ∧
      (∀ w : Value, w.wellFormed = true → w.everywhere hasPlainInstant = true → encode w = encode v → Value.same w v = true) ∧
      (v.kind = .array ∨ v.kind = .object →
        ∃ json w, ColumnJson.encode v = .ok json ∧ ColumnJson.decode json = .ok w ∧ Value.same w v = true) := by
  refine ⟨same_decode_encode hwell hplain, encode_decode_encode hwell hplain, ?_, ColumnJson.decode_encode hwell hplain⟩
  intro w hwell' hplain' h
  exact same_of_encode_eq hwell' hwell hplain' hplain h

/-- A wrapper of an object that looks like a wrapper of a date, with values of several kinds inside. -/
def lookAlike : Value :=
  .object [("$object", .object [("$date", .array [.timestamp { seconds := -1, nanos := 999000001 }, .decimal ⟨15, -1⟩,
    .number Double.nan, .integer 9007199254740993])])]

theorem lookAlike_reads_back :
    lookAlike.wellFormed = true ∧ lookAlike.everywhere hasPlainInstant = true ∧
      Value.same (decode (encode lookAlike)) lookAlike = true ∧ encode (decode (encode lookAlike)) = encode lookAlike ∧
      ∃ json w, ColumnJson.encode lookAlike = .ok json ∧ ColumnJson.decode json = .ok w ∧ Value.same w lookAlike = true := by
  have hwell : lookAlike.wellFormed = true := by
    decide
  have hplain : lookAlike.everywhere hasPlainInstant = true := by
    decide
  obtain ⟨hsame, hform, -, hcolumn⟩ := encode_reads_back hwell hplain
  exact ⟨hwell, hplain, hsame, hform, hcolumn (Or.inr rfl)⟩

end ExtendedJson

end ObjectStore
