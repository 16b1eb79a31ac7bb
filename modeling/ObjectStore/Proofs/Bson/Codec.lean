import Mathlib.Data.List.Nodup
import ObjectStore.Bson.Codec
import ObjectStore.Proofs.Bson.Decimal128
import ObjectStore.Proofs.Calendar.Text
import ObjectStore.Proofs.Outcome
import ObjectStore.Proofs.Text.Percent
import ObjectStore.Proofs.Value.Scalars

/-!
# BSON read back

A value has a BSON form unless it has a decimal inside that 128 bits do not hold. The form is read back as the value that it was, but for what is lost on scalars: an instant keeps its milliseconds only, and a decimal the number that it stands for. Names come back as they were because escapes do, and a document of a single field is taken for a date, a time or a wrapper only if it was written as one.
-/

namespace ObjectStore

namespace Bson

open ExtendedJson (Tag)

/-! ### Equations -/

theorem ofValue_decimal (d : Decimal) : ofValue (.decimal d) = ofDecimal d := rfl

theorem ofValue_array (items : List Value) : ofValue (.array items) = (ofValues items).map .array := rfl

theorem ofFields_cons (entry : String × Value) (fields : List (String × Value)) :
    ofFields (entry :: fields) = (ofValue entry.2).bind fun first => (ofFields fields).map fun rest =>
      (Percent.escape entry.1, first) :: rest :=
  rfl

theorem toValue_decimal128 (d : Decimal128) : toValue (.decimal128 d) = (toDecimal d).map .decimal := rfl

theorem toValue_instant (millis : Int) : toValue (.instant millis) = (toInstant millis).map .timestamp := rfl

theorem toValue_array (items : List Bson) : toValue (.array items) = (toValues items).map .array := rfl

theorem toValue_text (name text : String) : toValue (.document [(name, .string text)]) =
    .ok ((untagged? (Percent.restore name) text).getD (.object [(Percent.restore name, .string text)])) :=
  rfl

theorem toValue_inner (name : String) (inner : List (String × Bson)) : toValue (.document [(name, .document inner)]) =
    if Percent.restore name = Tag.object.name then (toEntries inner).map fun entries => .object (OrderedMap.ofList entries)
    else (toValue (.document inner)).map fun value => .object [(Percent.restore name, value)] :=
  rfl

theorem toEntries_cons (field : String × Bson) (fields : List (String × Bson)) :
    toEntries (field :: fields) = (toValue field.2).bind fun first => (toEntries fields).map fun rest =>
      (Percent.restore field.1, first) :: rest :=
  rfl

/-! ### Lists -/

def ofField (entry : String × Value) : Outcome (String × Bson) :=
  (ofValue entry.2).map fun bson => (Percent.escape entry.1, bson)

def toEntry (field : String × Bson) : Outcome (String × Value) :=
  (toValue field.2).map fun value => (Percent.restore field.1, value)

theorem ofValues_eq_mapM (items : List Value) : ofValues items = items.mapM ofValue := by
  induction items with
  | nil => rfl
  | cons item items ih =>
    rw [Outcome.mapM_cons, ← ih]
    rfl

theorem ofFields_eq_mapM (fields : List (String × Value)) : ofFields fields = fields.mapM ofField := by
  induction fields with
  | nil => rfl
  | cons entry fields ih =>
    rw [Outcome.mapM_cons, ← ih, ofFields_cons, ofField]
    cases ofValue entry.2 <;> rfl

theorem toValues_eq_mapM (items : List Bson) : toValues items = items.mapM toValue := by
  induction items with
  | nil => rfl
  | cons item items ih =>
    rw [Outcome.mapM_cons, ← ih]
    rfl

theorem toEntries_eq_mapM (fields : List (String × Bson)) : toEntries fields = fields.mapM toEntry := by
  induction fields with
  | nil => rfl
  | cons field fields ih =>
    rw [Outcome.mapM_cons, ← ih, toEntries_cons, toEntry]
    cases toValue field.2 <;> rfl

/-! ### What has a form -/

/-- The document of an object: wrapped if its only name is a tag. -/
def ofDocument (fields : List (String × Value)) (document : List (String × Bson)) : Bson :=
  if looksTagged fields then tagged .object (.document document) else .document document

theorem ofValue_object (fields : List (String × Value)) :
    ofValue (.object fields) = (ofFields fields).map (ofDocument fields) := by
  show (ofFields fields).bind _ = _
  cases ofFields fields <;> rfl

/-- Only a decimal that 128 bits do not hold has no form. -/
theorem exists_decimal_of_ofValue_eq_error {value : Value} {failure : Failure} (h : ofValue value = .error failure) :
    ∃ d reason, Value.Within (.decimal d) value ∧ Decimal128.ofDecimal? d = none ∧
      failure = .unsupportedType .decimal reason := by
  induction value using Value.nestedInduction with
  | scalar value hscalar =>
    cases value with
    | array items => cases hscalar
    | object fields => cases hscalar
    | decimal d =>
      rw [ofValue_decimal, ofDecimal] at h
      split at h
      · cases h
      · next hnone =>
        cases h
        exact ⟨d, _, .self _, hnone, rfl⟩
    | _ => cases h
  | array items ih =>
    rw [ofValue_array, Outcome.map_eq_error_iff, ofValues_eq_mapM] at h
    obtain ⟨item, hitem, hfails⟩ := Outcome.exists_of_mapM_eq_error h
    obtain ⟨d, reason, hwithin, hnone, hfailure⟩ := ih item hitem hfails
    exact ⟨d, reason, .item hitem hwithin, hnone, hfailure⟩
  | object fields ih =>
    rw [ofValue_object, Outcome.map_eq_error_iff, ofFields_eq_mapM] at h
    obtain ⟨entry, hentry, hfails⟩ := Outcome.exists_of_mapM_eq_error h
    obtain ⟨d, reason, hwithin, hnone, hfailure⟩ := ih entry hentry (Outcome.map_eq_error_iff.mp hfails)
    exact ⟨d, reason, .field hentry hwithin, hnone, hfailure⟩

theorem exists_ofValue_of_within {value inner : Value} (hwithin : Value.Within inner value) {bson : Bson}
    (h : ofValue value = .ok bson) : ∃ part, ofValue inner = .ok part := by
  induction hwithin generalizing bson with
  | self => exact ⟨bson, h⟩
  | item hitem _ ih =>
    rw [ofValue_array, Outcome.map_eq_ok_iff, ofValues_eq_mapM] at h
    obtain ⟨results, hresults, -⟩ := h
    obtain ⟨part, -, hpart⟩ := Outcome.exists_of_mapM_eq_ok hresults hitem
    exact ih hpart
  | field hentry _ ih =>
    rw [ofValue_object, Outcome.map_eq_ok_iff, ofFields_eq_mapM] at h
    obtain ⟨results, hresults, -⟩ := h
    obtain ⟨part, -, hpart⟩ := Outcome.exists_of_mapM_eq_ok hresults hentry
    obtain ⟨bson, hbson, -⟩ := Outcome.map_eq_ok_iff.mp hpart
    exact ih hbson

theorem exists_ofValue_iff {value : Value} :
    (∃ bson, ofValue value = .ok bson) ↔ ∀ d, Value.Within (.decimal d) value → (Decimal128.ofDecimal? d).isSome = true := by
  constructor
  · rintro ⟨bson, h⟩ d hwithin
    obtain ⟨part, hpart⟩ := exists_ofValue_of_within hwithin h
    rw [ofValue_decimal, ofDecimal] at hpart
    split at hpart
    · next hsome => rw [hsome, Option.isSome_some]
    · cases hpart
  · intro h
    apply Outcome.exists_ok
    intro failure hfails
    obtain ⟨d, -, hwithin, hnone, -⟩ := exists_decimal_of_ofValue_eq_error hfails
    have hsome := h d hwithin
    rw [hnone] at hsome
    cases hsome

/-- Whether some number of 128 bits is the decimal. -/
def Fits (d : Decimal) : Prop := ∃ x : Decimal128, x.Represents d

def AllFit (value : Value) : Prop := ∀ d, Value.Within (.decimal d) value → Fits d

theorem exists_ofValue_iff_allFit {value : Value} : (∃ bson, ofValue value = .ok bson) ↔ AllFit value :=
  exists_ofValue_iff.trans (forall₂_congr fun _ _ => Decimal128.isSome_ofDecimal?_iff)

theorem exists_ofValue_eq_error_iff {value : Value} :
    (∃ failure, ofValue value = .error failure) ↔ ∃ d, Value.Within (.decimal d) value ∧ ¬Fits d := by
  rw [Outcome.exists_error_iff, exists_ofValue_iff_allFit, AllFit, not_forall]
  simp only [not_forall, exists_prop]

theorem exists_ofValues_iff {values : List Value} : (∃ forms, ofValues values = .ok forms) ↔ ∀ value ∈ values, AllFit value := by
  rw [ofValues_eq_mapM]
  constructor
  · rintro ⟨forms, h⟩ value hvalue
    obtain ⟨bson, -, hbson⟩ := Outcome.exists_of_mapM_eq_ok h hvalue
    exact exists_ofValue_iff_allFit.mp ⟨bson, hbson⟩
  · exact fun h => Outcome.exists_mapM_eq_ok fun value hvalue => exists_ofValue_iff_allFit.mpr (h value hvalue)

theorem exists_ofFields_iff {fields : List (String × Value)} :
    (∃ document, ofFields fields = .ok document) ↔ ∀ entry ∈ fields, AllFit entry.2 := by
  rw [ofFields_eq_mapM]
  constructor
  · rintro ⟨document, h⟩ entry hentry
    obtain ⟨field, -, hfield⟩ := Outcome.exists_of_mapM_eq_ok h hentry
    obtain ⟨bson, hbson, -⟩ := Outcome.map_eq_ok_iff.mp hfield
    exact exists_ofValue_iff_allFit.mp ⟨bson, hbson⟩
  · intro h
    apply Outcome.exists_mapM_eq_ok
    intro entry hentry
    obtain ⟨bson, hbson⟩ := exists_ofValue_iff_allFit.mpr (h entry hentry)
    exact ⟨_, Outcome.map_eq_ok_iff.mpr ⟨bson, hbson, rfl⟩⟩

/-! ### Reading documents -/

theorem name_mem_tags_iff {name : String} :
    (tags.any fun tag => tag.name == name) = true ↔
      name = Tag.calendarDate.name ∨ name = Tag.timeOfDay.name ∨ name = Tag.object.name := by
  simp only [tags, List.any_cons, List.any_nil, Bool.or_false, Bool.or_eq_true, beq_iff_eq, @eq_comm _ name]

theorem toValue_tagged_calendarDate (d : Date) : toValue (tagged .calendarDate (.string d.toText)) = .ok (.date d) := by
  rw [tagged, toValue_text, Percent.restore_escape, untagged?, if_pos rfl, d.ofText?_toText]
  rfl

theorem toValue_tagged_timeOfDay (t : TimeOfDay) : toValue (tagged .timeOfDay (.string (t.toText .full))) = .ok (.time t) := by
  rw [tagged, toValue_text, Percent.restore_escape, untagged?, if_neg (by decide), if_pos rfl, t.ofFullText?_toText]
  rfl

/-- Exactly one wrapper is taken off an object. -/
theorem toValue_tagged_object (document : List (String × Bson)) :
    toValue (tagged .object (.document document)) =
      (toEntries document).map fun entries => .object (OrderedMap.ofList entries) := by
  rw [tagged, toValue_inner, Percent.restore_escape, if_pos rfl]

theorem toValue_document {document : List (String × Bson)}
    (h : looksTagged (document.map fun field => (Percent.restore field.1, field.2)) = false) :
    toValue (.document document) = (toEntries document).map fun entries => .object (OrderedMap.ofList entries) := by
  match document with
  | [] => rfl
  | [(name, payload)] =>
    have hname : ¬(Percent.restore name = Tag.calendarDate.name ∨ Percent.restore name = Tag.timeOfDay.name ∨
        Percent.restore name = Tag.object.name) := by
      rw [← name_mem_tags_iff]
      exact Bool.eq_false_iff.mp h
    simp only [not_or] at hname
    obtain ⟨hdate, htime, hobject⟩ := hname
    cases payload with
    | string text =>
      rw [toValue_text, untagged?, if_neg hdate, if_neg htime]
      rfl
    | document inner =>
      rw [toValue_inner, if_neg hobject, toEntries_cons]
      cases toValue (.document inner) <;> rfl
    | _ => rfl
  | _ :: _ :: _ => rw [toValue] <;> simp

theorem looksTagged_congr {α β : Type} {fields : List (String × α)} {others : List (String × β)}
    (h : fields.map Prod.fst = others.map Prod.fst) : looksTagged fields = looksTagged others := by
  match fields, others with
  | [], [] | _ :: _ :: _, _ :: _ :: _ => rfl
  | [_], [_] =>
    obtain ⟨hname, -⟩ := List.cons.inj h
    simp only [looksTagged, hname]
  | [], _ :: _ | [_], [] | [_], _ :: _ :: _ | _ :: _ :: _, [] | _ :: _ :: _, [_] => simp at h

theorem keys_ofFields {fields : List (String × Value)} {document : List (String × Bson)} (h : ofFields fields = .ok document) :
    OrderedMap.keys document = (OrderedMap.keys fields).map Percent.escape := by
  rw [ofFields_eq_mapM, Outcome.mapM_eq_ok_iff] at h
  induction h with
  | nil => rfl
  | cons hfirst _ ih =>
    obtain ⟨bson, -, rfl⟩ := Outcome.map_eq_ok_iff.mp hfirst
    exact congrArg _ ih

theorem names_of_ofFields {fields : List (String × Value)} {document : List (String × Bson)}
    (h : ofFields fields = .ok document) : (document.map fun field => Percent.restore field.1) = fields.map Prod.fst := by
  have hrestored : (document.map fun field => Percent.restore field.1) = (OrderedMap.keys document).map Percent.restore := by
    rw [OrderedMap.keys, List.map_map]
    rfl
  rw [hrestored, keys_ofFields h, List.map_map]
  simp only [Function.comp_def, Percent.restore_escape, List.map_id']
  rfl

theorem get?_ofFields {fields : List (String × Value)} {document : List (String × Bson)} (h : ofFields fields = .ok document)
    (key : String) : Option.Rel (fun value bson => ofValue value = .ok bson) (OrderedMap.get? fields key)
      (OrderedMap.get? document (Percent.escape key)) := by
  rw [ofFields_eq_mapM, Outcome.mapM_eq_ok_iff] at h
  induction h with
  | nil => exact Option.Rel.none
  | @cons entry field _ _ hfirst _ ih =>
    obtain ⟨bson, hbson, rfl⟩ := Outcome.map_eq_ok_iff.mp hfirst
    obtain ⟨name, value⟩ := entry
    simp only [OrderedMap.get?_cons, Percent.escape_inj]
    split
    · exact Option.Rel.some hbson
    · exact ih

theorem distinct_ofFields {fields : List (String × Value)} {document : List (String × Bson)} (h : ofFields fields = .ok document)
    (hdistinct : OrderedMap.Distinct fields) : OrderedMap.Distinct document := by
  rw [OrderedMap.Distinct, keys_ofFields h]
  exact List.Nodup.map (fun _ _ => Percent.escape_injective) hdistinct

theorem ofFields_append (fields others : List (String × Value)) :
    ofFields (fields ++ others) = (ofFields fields).bind fun first => (ofFields others).map fun rest => first ++ rest := by
  induction fields with
  | nil =>
    show ofFields others = (ofFields others).map _
    cases ofFields others <;> rfl
  | cons entry fields ih =>
    rw [List.cons_append, ofFields_cons, ofFields_cons, ih]
    cases ofValue entry.2 with
    | error failure => rfl
    | ok bson =>
      cases ofFields fields with
      | error failure => rfl
      | ok first => cases ofFields others <;> rfl

/-- Whether it is wrapped or not, the form of an object is read as its document. -/
theorem toValue_ofDocument {fields : List (String × Value)} {document : List (String × Bson)}
    (h : ofFields fields = .ok document) :
    toValue (ofDocument fields document) = (toEntries document).map fun entries => .object (OrderedMap.ofList entries) := by
  rw [ofDocument]
  cases hlooks : looksTagged fields with
  | true => rw [if_pos rfl, toValue_tagged_object]
  | false =>
    rw [if_neg Bool.false_ne_true]
    apply toValue_document
    rw [← hlooks]
    apply looksTagged_congr
    rw [List.map_map, ← names_of_ofFields h]
    rfl

/-! ### Reading scalars -/

/-- What is read back for a scalar. -/
def stored : Value → Value
  | .decimal d => .decimal (((Decimal128.ofDecimal? d).bind Decimal128.toDecimal?).getD d)
  | .timestamp t => .timestamp ((Instant.ofMillis? t.millis).getD t)
  | value => value

/-- Whether an instant is within those that whole milliseconds name. -/
def hasMillis : Value → Bool
  | .timestamp t => !t.isBeyondLast
  | _ => true

theorem toDecimal_ofDecimal? {d : Decimal} {x : Decimal128} (h : Decimal128.ofDecimal? d = some x) :
    ∃ e, toDecimal x = .ok e ∧ ((Decimal128.ofDecimal? d).bind Decimal128.toDecimal?).getD d = e ∧ e.same d = true := by
  obtain ⟨e, he, hsame⟩ := Decimal128.represents_of_ofDecimal? h
  refine ⟨e, ?_, ?_, hsame⟩
  · rw [toDecimal, he]
  · rw [h, Option.bind_some, he, Option.getD_some]

theorem toValue_ofValue_scalar {value : Value} (hscalar : value.isScalar = true) (hmillis : hasMillis value = true)
    {bson : Bson} (h : ofValue value = .ok bson) : toValue bson = .ok (stored value) := by
  cases value with
  | array items => cases hscalar
  | object fields => cases hscalar
  | decimal d =>
    rw [ofValue_decimal, ofDecimal] at h
    split at h
    · next x hx =>
      obtain ⟨e, he, hstored, -⟩ := toDecimal_ofDecimal? hx
      cases h
      rw [toValue_decimal128, he, stored, hstored]
      rfl
    · cases h
  | timestamp t =>
    have hsome : (Instant.ofMillis? t.millis).isSome = true := by
      rw [Instant.isSome_ofMillis?_millis_iff]
      simpa [hasMillis] using hmillis
    obtain ⟨whole, hwhole⟩ := Option.isSome_iff_exists.mp hsome
    cases h
    rw [toValue_instant, toInstant, hwhole, stored, hwhole, Option.getD_some]
    rfl
  | date d =>
    cases h
    exact toValue_tagged_calendarDate d
  | time t =>
    cases h
    exact toValue_tagged_timeOfDay t
  | _ =>
    cases h
    rfl

/-! ### Reading all values -/

theorem toEntries_of_ofFields {f : Value → Value} {fields : List (String × Value)} {document : List (String × Bson)}
    (hround : ∀ entry ∈ fields, ∀ bson, ofValue entry.2 = .ok bson → toValue bson = .ok (entry.2.mapScalars f))
    (h : ofFields fields = .ok document) : toEntries document = .ok (Value.mapFields f fields) := by
  rw [ofFields_eq_mapM] at h
  rw [toEntries_eq_mapM, Value.mapFields_eq_map]
  refine Outcome.mapM_mapM ?_ h
  intro entry hentry field hfield
  obtain ⟨bson, hbson, rfl⟩ := Outcome.map_eq_ok_iff.mp hfield
  rw [toEntry, hround entry hentry bson hbson, Percent.restore_escape]
  rfl

/-- The form of a value is read as the value with the scalars that are read for its scalars. -/
theorem toValue_ofValue {value : Value} (hwell : value.wellFormed = true) (hmillis : value.everywhere hasMillis = true)
    {bson : Bson} (h : ofValue value = .ok bson) : toValue bson = .ok (value.mapScalars stored) := by
  induction value using Value.nestedInduction generalizing bson with
  | scalar value hscalar =>
    rw [Value.mapScalars_scalar hscalar]
    exact toValue_ofValue_scalar hscalar (Value.test_of_everywhere hmillis) h
  | array items ih =>
    obtain ⟨-, hwell⟩ := Value.everywhere_array_iff.mp hwell
    obtain ⟨-, hmillis⟩ := Value.everywhere_array_iff.mp hmillis
    rw [ofValue_array, Outcome.map_eq_ok_iff, ofValues_eq_mapM] at h
    obtain ⟨results, hresults, rfl⟩ := h
    rw [toValue_array, toValues_eq_mapM, Value.mapScalars, Value.mapItems_eq_map, Outcome.map_eq_ok_iff]
    refine ⟨_, Outcome.mapM_mapM ?_ hresults, rfl⟩
    intro item hitem result hresult
    exact ih item hitem (hwell item hitem) (hmillis item hitem) hresult
  | object fields ih =>
    obtain ⟨hdistinct, hwell⟩ := Value.wellFormed_object_iff.mp hwell
    obtain ⟨-, hmillis⟩ := Value.everywhere_object_iff.mp hmillis
    rw [ofValue_object, Outcome.map_eq_ok_iff] at h
    obtain ⟨document, hdocument, rfl⟩ := h
    have hentries := toEntries_of_ofFields
      (fun entry hentry _ hbson => ih entry hentry (hwell entry hentry) (hmillis entry hentry) hbson) hdocument
    rw [Value.mapScalars, toValue_ofDocument hdocument, hentries, Except.map, OrderedMap.ofList_of_distinct (Value.distinct_mapFields hdistinct)]

theorem exists_toValue_of_within {value inner : Value} (hwithin : Value.Within inner value) {bson : Bson} {read : Value}
    (h : ofValue value = .ok bson) (hread : toValue bson = .ok read) :
    ∃ part innerRead, ofValue inner = .ok part ∧ toValue part = .ok innerRead := by
  induction hwithin generalizing bson read with
  | self => exact ⟨bson, read, h, hread⟩
  | item hitem _ ih =>
    rw [ofValue_array, Outcome.map_eq_ok_iff, ofValues_eq_mapM] at h
    obtain ⟨results, hresults, rfl⟩ := h
    rw [toValue_array, Outcome.map_eq_ok_iff, toValues_eq_mapM] at hread
    obtain ⟨items, hitems, -⟩ := hread
    obtain ⟨part, hpart, hof⟩ := Outcome.exists_of_mapM_eq_ok hresults hitem
    obtain ⟨partRead, -, hto⟩ := Outcome.exists_of_mapM_eq_ok hitems hpart
    exact ih hof hto
  | field hentry _ ih =>
    rw [ofValue_object, Outcome.map_eq_ok_iff] at h
    obtain ⟨document, hdocument, rfl⟩ := h
    rw [toValue_ofDocument hdocument, Outcome.map_eq_ok_iff, toEntries_eq_mapM] at hread
    obtain ⟨entries, hentries, -⟩ := hread
    rw [ofFields_eq_mapM] at hdocument
    obtain ⟨field, hfield, hof⟩ := Outcome.exists_of_mapM_eq_ok hdocument hentry
    obtain ⟨part, hpart, rfl⟩ := Outcome.map_eq_ok_iff.mp hof
    obtain ⟨entryRead, -, hto⟩ := Outcome.exists_of_mapM_eq_ok hentries hfield
    obtain ⟨partRead, hpartRead, -⟩ := Outcome.map_eq_ok_iff.mp hto
    exact ih hpart hpartRead

theorem everywhere_hasMillis_iff {value : Value} :
    value.everywhere hasMillis = true ↔ ∀ t, Value.Within (.timestamp t) value → t.isBeyondLast = false := by
  rw [Value.everywhere_iff]
  constructor
  · intro h t hwithin
    simpa [hasMillis] using h _ hwithin
  · intro h inner hwithin
    cases inner with
    | timestamp t => simpa [hasMillis] using h t hwithin
    | _ => rfl

/-- A form is read back unless an instant inside is beyond all whole milliseconds. -/
theorem exists_toValue_iff {value : Value} (hwell : value.wellFormed = true) {bson : Bson} (h : ofValue value = .ok bson) :
    (∃ read, toValue bson = .ok read) ↔ ∀ t, Value.Within (.timestamp t) value → t.isBeyondLast = false := by
  constructor
  · rintro ⟨read, hread⟩ t hwithin
    obtain ⟨part, innerRead, hpart, hinner⟩ := exists_toValue_of_within hwithin h hread
    cases hpart
    rw [toValue_instant, toInstant] at hinner
    split at hinner
    · next hsome => rw [← Instant.isSome_ofMillis?_millis_iff, hsome, Option.isSome_some]
    · cases hinner
  · intro hmillis
    exact ⟨_, toValue_ofValue hwell (everywhere_hasMillis_iff.mpr hmillis) h⟩

end Bson

/-! ### What is read back -/

/-- The value with every instant cut to whole milliseconds. -/
def Value.truncated (value : Value) : Value :=
  value.mapScalars fun
    | .timestamp t => .timestamp ((Instant.ofMillis? t.millis).getD t)
    | scalar => scalar

namespace Bson

theorem same_stored_truncated {value : Value} (hwell : value.wellFormed = true) {bson : Bson}
    (h : ofValue value = .ok bson) : Value.same (value.mapScalars stored) value.truncated = true := by
  refine Value.same_mapScalars hwell fun inner hwithin hscalar => ?_
  cases inner with
  | array items => cases hscalar
  | object fields => cases hscalar
  | decimal d =>
    obtain ⟨x, hx⟩ := Option.isSome_iff_exists.mp (exists_ofValue_iff.mp ⟨bson, h⟩ d hwithin)
    obtain ⟨e, -, hstored, hsame⟩ := toDecimal_ofDecimal? hx
    rw [stored, hstored]
    exact hsame
  | _ => simp [stored, Value.same, Value.eqBy, Value.sameScalar]

theorem same_of_toValue {value : Value} (hwell : value.wellFormed = true) {bson : Bson} (h : ofValue value = .ok bson)
    {read : Value} (hread : toValue bson = .ok read) : Value.same read value.truncated = true := by
  have hmillis := everywhere_hasMillis_iff.mpr ((exists_toValue_iff hwell h).mp ⟨read, hread⟩)
  obtain rfl := Except.ok.inj ((toValue_ofValue hwell hmillis h).symm.trans hread)
  exact same_stored_truncated hwell h

theorem toFields_ofFields {record : Fields} (hwell : (Value.object record).wellFormed = true) {document : Document}
    (h : Document.ofFields record = .ok document)
    (hmillis : ∀ t, Value.Within (.timestamp t) (.object record) → t.isBeyondLast = false) :
    ∃ fields, document.toFields = .ok fields ∧ OrderedMap.keys fields = OrderedMap.keys record ∧
      Value.same (.object fields) (Value.object record).truncated = true := by
  have hform : ofValue (.object record) = .ok (ofDocument record document) := by
    rw [ofValue_object, show ofFields record = .ok document from h, Except.map]
  have hsame := same_stored_truncated hwell hform
  obtain ⟨hdistinct, hinner⟩ := Value.wellFormed_object_iff.mp hwell
  obtain ⟨-, hinnerMillis⟩ := Value.everywhere_object_iff.mp (everywhere_hasMillis_iff.mpr hmillis)
  have hentries := toEntries_of_ofFields
    (fun entry hentry _ hbson => toValue_ofValue (hinner entry hentry) (hinnerMillis entry hentry) hbson) h
  refine ⟨Value.mapFields stored record, ?_, Value.keys_mapFields record, hsame⟩
  rw [Document.toFields, hentries, Except.map, OrderedMap.ofList_of_distinct (Value.distinct_mapFields hdistinct)]

/-- A value fails to have a form exactly if a decimal inside does not fit 128 bits. Otherwise the form is read as the value with its instants in whole milliseconds, if they have those, and a record keeps its names. -/
theorem ofValue_reads_back {value : Value} (hwell : value.wellFormed = true) :
    (((∃ failure, ofValue value = .error failure) ↔ ∃ d, Value.Within (.decimal d) value ∧ ¬Fits d) ∧
      ∀ failure, ofValue value = .error failure → ∃ reason, failure = .unsupportedType .decimal reason) ∧
    (∀ bson, ofValue value = .ok bson →
      ((∃ read, toValue bson = .ok read) ↔ ∀ t, Value.Within (.timestamp t) value → t.isBeyondLast = false) ∧
      ∀ read, toValue bson = .ok read → Value.same read value.truncated = true) ∧
    ∀ record, value = .object record →
      (∀ failure, Document.ofFields record = .error failure → ofValue value = .error failure) ∧
      ∀ document, Document.ofFields record = .ok document →
        (∀ t, Value.Within (.timestamp t) value → t.isBeyondLast = false) →
        ∃ fields, document.toFields = .ok fields ∧ OrderedMap.keys fields = OrderedMap.keys record ∧
          Value.same (.object fields) value.truncated = true := by
  refine ⟨⟨exists_ofValue_eq_error_iff, fun failure hfails => ?_⟩,
    fun bson h => ⟨exists_toValue_iff hwell h, fun read hread => same_of_toValue hwell h hread⟩, ?_⟩
  · obtain ⟨d, reason, -, -, hfailure⟩ := exists_decimal_of_ofValue_eq_error hfails
    exact ⟨reason, hfailure⟩
  · rintro record rfl
    refine ⟨fun failure hfails => ?_, fun document h hmillis => toFields_ofFields hwell h hmillis⟩
    rw [ofValue_object, show ofFields record = .error failure from hfails, Except.map]

/-- An object under the name of a wrapper, with names of tags and escapes and with scalars that lose digits. -/
def disguised : Value :=
  .object [("$object", .object [("$calendarDate", .string "2024-02-30"), ("%24.", .timestamp { seconds := -1, nanos := 999999999 })]),
    ("%2E", .array [.object [("$timeOfDay", .time { hour := 23, minute := 59, second := 59, nanos := 1999999999 })], .decimal ⟨1500, -3⟩])]

theorem disguised_reads_back :
    disguised.wellFormed = true ∧ ∃ bson, ofValue disguised = .ok bson ∧
      ∃ read, toValue bson = .ok read ∧ Value.same read disguised.truncated = true := by
  have hwell : disguised.wellFormed = true := by
    decide
  obtain ⟨-, hform, -⟩ := ofValue_reads_back hwell
  have hplain : disguised.everywhere hasMillis = true := by
    decide
  obtain ⟨bson, hbson⟩ : ∃ bson, ofValue disguised = .ok bson := ⟨_, rfl⟩
  obtain ⟨hreadable, hsame⟩ := hform bson hbson
  obtain ⟨read, hread⟩ := hreadable.mpr (everywhere_hasMillis_iff.mp hplain)
  exact ⟨hwell, bson, hbson, read, hread, hsame read hread⟩

/-- The last leap second that is represented. -/
def lastLeapSecond : Instant := { seconds := Calendar.lastSecond, nanos := 1999999999 }

theorem not_all_read_back :
    ofValue (.timestamp lastLeapSecond) = .ok (.instant 8210266876800999) ∧
      toValue (.instant 8210266876800999) = .error (.serialization "BSON datetime 8210266876800999 is out of range") :=
  ⟨rfl, rfl⟩

end Bson

end ObjectStore
