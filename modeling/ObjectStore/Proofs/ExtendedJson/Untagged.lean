import ObjectStore.Proofs.ExtendedJson.Containment

/-!
# Documents that were never written as values

A document that comes from somewhere else is read as a value and may be written again. If no object in it looks like a wrapper and its integers are small, it comes back as it was: an object with a tag among several names, or with a name that is no tag, is an ordinary one at any depth, and a number stays in its class.

Whatever a document holds, an object is read as something else only through a payload that its tag accepts; all other look-alikes stay objects.
-/

namespace ObjectStore

namespace ExtendedJson

/-- The documents that wrap nothing: no object has a tag as its only name, and all integers are safe. -/
inductive Untagged : Json → Prop where
  | null : Untagged .null
  | boolean (flag : Bool) : Untagged (.boolean flag)
  | string (text : String) : Untagged (.string text)
  | integer {n : Int} (hsafe : -maxSafeInteger ≤ n ∧ n ≤ maxSafeInteger) : Untagged (.integer n)
  /-- JSON has no other doubles. -/
  | float {x : Double} (hfinite : x.isFinite = true) : Untagged (.float x)
  | array {items : List Json} (h : ∀ item ∈ items, Untagged item) : Untagged (.array items)
  | object {fields : List (String × Json)} (hlooks : looksWrapped fields = false)
    (h : ∀ entry ∈ fields, Untagged entry.2) : Untagged (.object fields)

theorem ofInt_of_safe {n : Int} (hsafe : -maxSafeInteger ≤ n ∧ n ≤ maxSafeInteger) :
    ∃ small : Int64, small.toInt = n ∧ Value.ofInt n = .integer small := by
  have hlarge : maxSafeInteger = 2 ^ 53 - 1 := rfl
  have hn : (Int64.ofInt n).toInt = n := Int64.toInt_ofInt_of_le (by omega) (by omega)
  exact ⟨Int64.ofInt n, hn, by rw [← hn, ofInt_toInt, hn]⟩

theorem Untagged.encode_decode {json : Json} (h : Untagged json) : encode (decode json) = json := by
  induction h with
  | null | boolean flag | string text => rfl
  | @integer n hsafe =>
    obtain ⟨small, rfl, hread⟩ := ofInt_of_safe hsafe
    rw [decode, hread, encode, if_pos hsafe]
  | float hfinite => rw [decode, encode, if_pos hfinite]
  | @array items h ih =>
    rw [decode, encode, decodeItems_eq_map, encodeItems_eq_map, List.map_map]
    exact congrArg Json.array ((List.map_congr_left ih).trans (List.map_id items))
  | @object fields hlooks h ih =>
    -- reading keeps the names, so what is written does not look like a wrapper either
    have hread : looksWrapped (decodeFields fields) = false := by
      rw [decodeFields_eq_map, looksWrapped_map, hlooks]
    have hfields : encodeFields (decodeFields fields) = fields := by
      rw [decodeFields_eq_map, encodeFields_eq_map, List.map_map]
      refine (List.map_congr_left fun entry hentry => ?_).trans (List.map_id fields)
      exact congrArg (Prod.mk entry.1) (ih entry hentry)
    rw [decode_object hlooks, encode, hread, if_neg Bool.false_ne_true, hfields]

/-! ### Payloads -/

/-- The payloads of a tag's shape and the value of each. The tag of objects has none, as what it wraps is an object anyway. -/
inductive Accepts : Tag → Json → Value → Prop where
  | long {text : String} {n : Int64} (h : Numeral.int64? text.toList = some n) : Accepts .long (.string text) (.integer n)
  | unsignedLong {text : String} {n : Nat} (h : Numeral.uint64? text.toList = some n) :
    Accepts .unsignedLong (.string text) (Value.ofInt n)
  | decimal {text : String} {d : Decimal} (h : Decimal.ofText? text.toList = some d) :
    Accepts .decimal (.string text) (.decimal d)
  | double {text : String} {x : Double} (h : double? text = some x) : Accepts .double (.string text) (.number x)
  /-- Milliseconds in a wrapper of their own. -/
  | count {text : String} {millis : Int64} {t : Instant} (hmillis : Numeral.int64? text.toList = some millis)
    (h : Instant.ofMillis? millis.toInt = some t) : Accepts .date (Tag.long.wrap (.string text)) (.timestamp t)
  | millis {n : Int} {t : Instant} (hfits : fitsBits 64 n = true) (h : Instant.ofMillis? n = some t) :
    Accepts .date (.integer n) (.timestamp t)
  | moment {text : String} {t : Instant} (h : Instant.ofText? text.toList = some t) : Accepts .date (.string text) (.timestamp t)
  | calendarDate {text : String} {d : Date} (h : Date.ofText? text.toList = some d) :
    Accepts .calendarDate (.string text) (.date d)
  | timeOfDay {text : String} {t : TimeOfDay} (h : TimeOfDay.ofText? text.toList = some t) :
    Accepts .timeOfDay (.string text) (.time t)
  /-- The two parts in either order, and no other part. -/
  | binary {fields : List (String × Json)} {text subType : String} {bytes : List UInt8}
    (hparts : fields.Perm [(base64Name, .string text), (subTypeName, .string subType)])
    (h : Base64.decode? text.toList = some bytes) : Accepts .binary (.object fields) (.binary bytes)

theorem Accepts.kind_ne {tag : Tag} {payload : Json} {value : Value} (h : Accepts tag payload value) : value.kind ≠ .object := by
  cases h with
  | @unsignedLong text n h =>
    rw [Value.ofInt]
    split <;> exact fun h => by cases h
  | _ => exact fun h => by cases h

theorem string?_eq_some_iff {json : Json} {text : String} : json.string? = some text ↔ json = .string text := by
  cases json <;> simp [Json.string?]

theorem instant?_eq_some_iff {payload : Json} {t : Instant} : instant? payload = some t ↔ Accepts .date payload (.timestamp t) := by
  constructor
  · intro h
    unfold instant? at h
    split at h
    · next name text =>
      split at h
      · next hname =>
        obtain ⟨millis, hmillis, hread⟩ := Option.bind_eq_some_iff.mp h
        subst hname
        exact .count hmillis hread
      · cases h
    · next n =>
      split at h
      · next hfits => exact .millis hfits h
      · cases h
    · exact .moment h
    · cases h
  · intro h
    cases h with
    | count hmillis h => rw [Tag.wrap, instant?, if_pos rfl, hmillis, Option.bind_some, h]
    | millis hfits h => rw [instant?, if_pos hfits, h]
    | moment h => rw [instant?, h]

theorem bytes?_eq_some_iff {fields : List (String × Json)} {bytes : List UInt8} :
    bytes? fields = some bytes ↔ Accepts .binary (.object fields) (.binary bytes) := by
  constructor
  · intro h
    unfold bytes? at h
    split at h
    · next text subType htext hsubType =>
      obtain ⟨_, hget, hjson⟩ := Option.bind_eq_some_iff.mp htext
      obtain rfl := string?_eq_some_iff.mp hjson
      obtain ⟨_, hget', hjson'⟩ := Option.bind_eq_some_iff.mp hsubType
      obtain rfl := string?_eq_some_iff.mp hjson'
      split at h
      · next hlength =>
        have hparts : [(base64Name, Json.string text), (subTypeName, Json.string subType)].Subperm fields := by
          refine List.subperm_of_subset ?_ ?_
          · simp [base64Name, subTypeName]
          · simp [OrderedMap.mem_of_get? hget, OrderedMap.mem_of_get? hget']
        -- two different entries are all that two places hold
        exact .binary (hparts.perm_of_length_le (by simp [hlength])).symm h
      · cases h
    · cases h
  · rintro (_ | _ | _ | _ | _ | _ | _ | _ | _ | @⟨_, text, subType, _, hparts, h⟩)
    have hdistinct : OrderedMap.Distinct fields := by
      refine OrderedMap.Distinct.of_perm ?_ hparts
      simp [OrderedMap.Distinct, OrderedMap.keys, base64Name, subTypeName]
    have htext : OrderedMap.get? fields base64Name = some (.string text) :=
      (OrderedMap.mem_iff_get? hdistinct).mp (hparts.mem_iff.mpr (by simp))
    have hsubType : OrderedMap.get? fields subTypeName = some (.string subType) :=
      (OrderedMap.mem_iff_get? hdistinct).mp (hparts.mem_iff.mpr (by simp))
    rw [bytes?, htext, hsubType, Option.bind_some, Option.bind_some, Json.string?, Json.string?]
    simpa [hparts.length_eq] using h

theorem unwrap?_eq_some_iff {tag : Tag} {payload : Json} {value : Value} :
    unwrap? tag payload = some value ↔ Accepts tag payload value := by
  constructor
  · intro h
    unfold unwrap? at h
    split at h
    case h_9 => cases h
    all_goals obtain ⟨read, hread, rfl⟩ := Option.map_eq_some_iff.mp h
    · exact .long hread
    · obtain ⟨n, hn, hcast⟩ := Option.bind_eq_some_iff.mp hread
      obtain rfl := Option.some.inj hcast
      exact .unsignedLong hn
    · exact .decimal hread
    · exact .double hread
    · exact instant?_eq_some_iff.mp hread
    · exact .calendarDate hread
    · exact .timeOfDay hread
    · exact bytes?_eq_some_iff.mp hread
  · intro h
    have haccepts := h
    cases h with
    | count | millis | moment => rw [unwrap?, instant?_eq_some_iff.mpr haccepts, Option.map_some]
    | binary => rw [unwrap?, bytes?_eq_some_iff.mpr haccepts, Option.map_some]
    | unsignedLong h =>
      rw [unwrap?, h]
      rfl
    | long h | decimal h | double h | calendarDate h | timeOfDay h => rw [unwrap?, h, Option.map_some]

/-! ### Objects -/

theorem Tag.name_of_ofName? {name : String} {tag : Tag} (h : Tag.ofName? name = some tag) : tag.name = name :=
  beq_iff_eq.mp (List.find?_some (p := fun tag : Tag => tag.name == name) h)

/-- An object is read by its tag, or stays an object: its own, or the one that it wraps. -/
theorem decode_object_cases (fields : List (String × Json)) :
    (∃ tag payload, fields = [(tag.name, payload)] ∧ Accepts tag payload (decode (.object fields))) ∨
      ∃ inner, decode (.object fields) = .object inner := by
  cases hlooks : looksWrapped fields with
  | false => exact Or.inr ⟨_, decode_object hlooks⟩
  | true =>
    obtain ⟨name, payload, rfl, hname⟩ := eq_singleton_of_looksWrapped hlooks
    obtain ⟨tag, htag⟩ := Option.isSome_iff_exists.mp hname
    obtain rfl := Tag.name_of_ofName? htag
    by_cases hobject : tag = .object
    · subst hobject
      cases payload with
      | object inner => exact Or.inr ⟨_, decode_wrap_escaped inner⟩
      | _ => exact Or.inr ⟨_, rfl⟩
    · have hread := decode_wrap_eq hobject payload
      cases hunwrap : unwrap? tag payload with
      | none =>
        rw [hunwrap, Option.getD_none] at hread
        exact Or.inr ⟨_, hread⟩
      | some value =>
        rw [hunwrap, Option.getD_some] at hread
        refine Or.inl ⟨tag, payload, rfl, ?_⟩
        rw [show decode (.object [(tag.name, payload)]) = value from hread]
        exact unwrap?_eq_some_iff.mp hunwrap

/-- Only payloads that a tag accepts are read as something other than an object. -/
theorem decode_object_eq_iff {fields : List (String × Json)} {value : Value} :
    decode (.object fields) = value ∧ value.kind ≠ .object ↔
      ∃ tag payload, fields = [(tag.name, payload)] ∧ Accepts tag payload value := by
  constructor
  · rintro ⟨rfl, hkind⟩
    refine (decode_object_cases fields).resolve_right ?_
    rintro ⟨inner, hinner⟩
    exact hkind (by rw [hinner]; rfl)
  · rintro ⟨tag, payload, rfl, haccepts⟩
    exact ⟨decode_wrap (unwrap?_eq_some_iff.mpr haccepts), haccepts.kind_ne⟩

/-- What wraps nothing passes through reading and writing untouched, names in order. And whatever a document holds, an object is read as something else only if its one name is a tag that accepts what it names. -/
theorem foreign_documents_pass_through :
    (∀ json, Untagged json → encode (decode json) = json) ∧
      ∀ fields value, decode (.object fields) = value ∧ value.kind ≠ .object ↔
        ∃ tag payload, fields = [(tag.name, payload)] ∧ Accepts tag payload value :=
  ⟨fun _ h => h.encode_decode, fun _ _ => decode_object_eq_iff⟩

/-- A tag among two names, and alone a name that is almost a tag. -/
def foreign : Json :=
  .object [("$numberLong", .array [.integer (-9007199254740991), .float (Double.zero true), .null]),
    ("$date", .object [("$numberlong", .string "1")])]

theorem foreign_passes_through :
    Untagged foreign ∧ encode (decode foreign) = foreign ∧
      decode (.object [("$numberLong", .string "12")]) = .integer 12 ∧
      (decode (.object [("$numberLong", .integer 12)])).kind = .object := by
  have hforeign : Untagged foreign := by
    refine .object rfl (List.forall_mem_cons.mpr ⟨.array ?_, List.forall_mem_singleton.mpr (.object rfl ?_)⟩)
    · exact List.forall_mem_cons.mpr ⟨.integer (by decide),
        List.forall_mem_cons.mpr ⟨.float (by decide), List.forall_mem_singleton.mpr .null⟩⟩
    · exact List.forall_mem_singleton.mpr (.string "1")
  obtain ⟨hpass, hread⟩ := foreign_documents_pass_through
  refine ⟨hforeign, hpass foreign hforeign, ?_, ?_⟩
  · exact ((hread _ (.integer 12)).mpr ⟨.long, .string "12", rfl, .long (by decide)⟩).1
  · by_contra hkind
    obtain ⟨tag, payload, hfields, haccepts⟩ := (hread _ _).mp ⟨rfl, hkind⟩
    simp only [List.cons.injEq, Prod.mk.injEq, and_true] at hfields
    obtain ⟨hname, rfl⟩ := hfields
    -- an integer is a payload of dates only
    cases haccepts

end ExtendedJson

end ObjectStore
