import ObjectStore.Proofs.Documents.Changes

/-!
# Paths of update documents

A database refuses an update document that lists one path under two operators, or a path and another one inside it. The document of an upsert never does. Up to their order its paths are the keys of the updates, each under the operator of its update, the stamp of the update, and for an inserted document the id if one is given, the stamp of its creation and the keys that the update does not touch. None of these names is there twice, and escaping keeps them apart and takes the dots out of them.
-/

namespace ObjectStore

namespace Documents

/-- The operators of a document of changes, each with a path that it lists. -/
def paths (document : Document) : List (String × String) :=
  document.flatMap fun change =>
    match change.2 with
    | .document fields => (OrderedMap.keys fields).map fun path => (change.1, path)
    | _ => []

/-- The operators that list a path, as often as they do. -/
def operatorsOf (document : Document) (path : String) : List String :=
  ((paths document).filter fun place => place.2 = path).map Prod.fst

theorem filter_path_of_mem {places : List (String × String)} (hnodup : (places.map Prod.snd).Nodup) {place : String × String}
    (h : place ∈ places) : (places.filter fun other => other.2 = place.2) = [place] := by
  induction places with
  | nil => cases h
  | cons first rest ih =>
    rw [List.map_cons, List.nodup_cons] at hnodup
    rw [List.filter_cons]
    rcases List.mem_cons.mp h with rfl | hrest
    · rw [if_pos (by simp), List.filter_eq_nil_iff.mpr]
      intro other hother hsame
      exact hnodup.1 (List.mem_map.mpr ⟨other, hother, by simpa using hsame⟩)
    · rw [if_neg, ih hnodup.2 hrest]
      intro hsame
      exact hnodup.1 (List.mem_map.mpr ⟨place, hrest, by simpa using (of_decide_eq_true hsame).symm⟩)

namespace Changes

/-! ### Keys and their operators -/

theorem paths_cons (operator : Operator) (fields : Document) (changes : Changes) :
    paths (document ((operator, fields) :: changes)) =
      ((OrderedMap.keys fields).map fun path => (operator.name, path)) ++ paths changes.document := rfl

theorem paths_append (changes others : Changes) :
    paths (document (changes ++ others)) = paths changes.document ++ paths others.document := by
  rw [document, List.map_append, paths, List.flatMap_append]
  rfl

theorem paths_add {changes : Changes} {name : String} (hnew : ∀ place ∈ paths changes.document, place.2 ≠ name)
    (operator : Operator) (operand : Bson) :
    (paths (add changes operator name operand).document).Perm ((operator.name, name) :: paths changes.document) := by
  induction changes with
  | nil => exact List.Perm.refl _
  | cons change rest ih =>
    obtain ⟨first, fields⟩ := change
    rw [paths_cons] at hnew
    obtain ⟨hfields, hrest⟩ := List.forall_mem_append.mp hnew
    rw [add]
    split
    · next same =>
      have hname : name ∉ OrderedMap.keys fields := fun hmem => hfields _ (List.mem_map_of_mem hmem) rfl
      rw [paths_cons, paths_cons, OrderedMap.insert_of_not_mem hname, OrderedMap.keys, List.map_append, List.map_append,
        List.append_assoc, same]
      exact List.perm_middle
    · rw [paths_cons, paths_cons]
      exact ((ih hrest).append_left _).trans List.perm_middle

/-- A key under an operator. -/
abbrev Place := Operator × String

/-- A place as it stands in a document. -/
def written (place : Place) : String × String := (place.1.name, Percent.escape place.2)

def updatedPlaces (updates : Updates) : List Place := updates.map fun entry => (Operator.ofUpdate entry.2, entry.1)

/-- The fields that are listed for inserted documents. -/
def untouched (updates : Updates) (setOnInsert : Fields) : Fields :=
  OrderedMap.filter (fun key _ => !OrderedMap.contains updates key) setOnInsert

def insertedKeys (updates : Updates) (setOnInsert : Fields) (id : Option String) : List String :=
  (id.map fun _ => FieldName.physicalId).toList ++ FieldName.physicalCreatedAt :: OrderedMap.keys (untouched updates setOnInsert)

/-- The places of an upsert. -/
def places (updates : Updates) (setOnInsert : Fields) (id : Option String) : List Place :=
  (.set, FieldName.physicalUpdatedAt) :: updatedPlaces updates ++
    (insertedKeys updates setOnInsert id).map fun key => (.setOnInsert, key)

theorem paths_foldlM {updates : Updates} (hdistinct : updates.Distinct) {start changes : Changes}
    (h : updates.foldlM (fun changes (key, update) => addUpdate changes key update) start = .ok changes)
    (hnew : ∀ key ∈ OrderedMap.keys updates, ∀ place ∈ paths start.document, place.2 ≠ Percent.escape key) :
    (paths changes.document).Perm ((updatedPlaces updates).map written ++ paths start.document) := by
  induction updates generalizing start with
  | nil =>
    obtain rfl := Except.ok.inj h
    exact List.Perm.refl _
  | cons entry rest ih =>
    obtain ⟨name, update⟩ := entry
    obtain ⟨hname, hrest⟩ := List.nodup_cons.mp hdistinct
    obtain ⟨hfirst, hothers⟩ := List.forall_mem_cons.mp hnew
    rw [foldlM_addUpdate_cons] at h
    obtain ⟨next, hnext, hfold⟩ := Outcome.bind_eq_ok_iff.mp h
    obtain ⟨-, bson, -, rfl⟩ := addUpdate_eq_ok_iff.mp hnext
    have hadded := paths_add hfirst (Operator.ofUpdate update) bson
    refine (ih hrest hfold ?_).trans ((hadded.append_left _).trans List.perm_middle)
    intro key hkey place hplace
    rcases List.mem_cons.mp (hadded.mem_iff.mp hplace) with rfl | hstart
    · exact fun same => hname (Percent.escape_injective same ▸ hkey)
    · exact hothers key hkey place hstart

/-- The keys of both maps are distinct, and none of them is the stored name of a reserved field. -/
structure Checked (updates : Updates) (setOnInsert : Fields) : Prop where
  distinctUpdates : updates.Distinct
  distinctInserts : setOnInsert.Distinct
  updatesFree : ∀ key ∈ OrderedMap.keys updates, key ∉ FieldName.reserved
  insertsFree : ∀ key ∈ OrderedMap.keys setOnInsert, key ∉ FieldName.reserved

variable {updates : Updates} {setOnInsert : Fields} {id : Option String} {key : String}

theorem mem_untouched_iff {entry : String × Value} :
    entry ∈ untouched updates setOnInsert ↔ entry ∈ setOnInsert ∧ entry.1 ∉ OrderedMap.keys updates := by
  rw [untouched, OrderedMap.filter, List.mem_filter, ← @OrderedMap.contains_eq_true_iff _ updates, Bool.not_eq_true', Bool.not_eq_true]

theorem mem_keys_untouched_iff : key ∈ OrderedMap.keys (untouched updates setOnInsert) ↔
    key ∈ OrderedMap.keys setOnInsert ∧ key ∉ OrderedMap.keys updates := by
  simp only [OrderedMap.mem_keys_iff, mem_untouched_iff, exists_and_right]

theorem mem_insertedKeys_iff : key ∈ insertedKeys updates setOnInsert id ↔
    (id.isSome = true ∧ key = FieldName.physicalId) ∨ key = FieldName.physicalCreatedAt ∨
      key ∈ OrderedMap.keys setOnInsert ∧ key ∉ OrderedMap.keys updates := by
  rw [insertedKeys, List.mem_append, List.mem_cons, mem_keys_untouched_iff]
  cases id <;> simp

theorem keys_places (updates : Updates) (setOnInsert : Fields) (id : Option String) : (places updates setOnInsert id).map Prod.snd =
    FieldName.physicalUpdatedAt :: OrderedMap.keys updates ++ insertedKeys updates setOnInsert id := by
  simp [places, updatedPlaces, OrderedMap.keys]

theorem updatedAt_mem_places (updates : Updates) (setOnInsert : Fields) (id : Option String) :
    (Operator.set, FieldName.physicalUpdatedAt) ∈ places updates setOnInsert id := List.mem_cons_self

theorem mem_places_of_update {update : Update} (h : (key, update) ∈ updates) :
    (Operator.ofUpdate update, key) ∈ places updates setOnInsert id := by
  rw [places, List.cons_append]
  exact List.mem_cons_of_mem _ (List.mem_append_left _ (List.mem_map_of_mem h))

theorem mem_places_of_insertedKeys (h : key ∈ insertedKeys updates setOnInsert id) :
    (Operator.setOnInsert, key) ∈ places updates setOnInsert id := by
  rw [places]
  exact List.mem_append_right _ (List.mem_map_of_mem h)

namespace Checked

variable (hchecked : Checked updates setOnInsert)

include hchecked

theorem nodup_insertedKeys (id : Option String) : (insertedKeys updates setOnInsert id).Nodup := by
  have huntouched : ∀ key ∈ OrderedMap.keys (untouched updates setOnInsert), key ∉ FieldName.reserved :=
    fun key hkey => hchecked.insertsFree key (mem_keys_untouched_iff.mp hkey).1
  have hlisted : (FieldName.physicalCreatedAt :: OrderedMap.keys (untouched updates setOnInsert)).Nodup :=
    List.nodup_cons.mpr ⟨fun hmem => huntouched _ hmem (by decide), OrderedMap.distinct_filter hchecked.distinctInserts _⟩
  cases id with
  | none => exact hlisted
  | some id =>
    refine List.nodup_cons.mpr ⟨fun hmem => ?_, hlisted⟩
    rcases List.mem_cons.mp hmem with hsame | hmem
    · exact absurd hsame (show FieldName.physicalId ≠ FieldName.physicalCreatedAt by decide)
    · exact huntouched FieldName.physicalId hmem (by decide)

theorem nodup_places (id : Option String) : ((places updates setOnInsert id).map Prod.snd).Nodup := by
  rw [keys_places]
  refine List.nodup_append.mpr ⟨?_, hchecked.nodup_insertedKeys id, ?_⟩
  · exact List.nodup_cons.mpr ⟨fun hmem => hchecked.updatesFree _ hmem (by decide), hchecked.distinctUpdates⟩
  · intro first hfirst second hsecond same
    subst same
    rcases List.mem_cons.mp hfirst with rfl | hkey
    · rcases mem_insertedKeys_iff.mp hsecond with ⟨-, hid⟩ | hcreated | ⟨hkey, -⟩
      · exact absurd hid (by decide)
      · exact absurd hcreated (by decide)
      · exact hchecked.insertsFree _ hkey (by decide)
    · rcases mem_insertedKeys_iff.mp hsecond with ⟨-, rfl⟩ | rfl | ⟨-, hnot⟩
      · exact hchecked.updatesFree _ hkey (by decide)
      · exact hchecked.updatesFree _ hkey (by decide)
      · exact hnot hkey

theorem keys_onInsert {now : Instant} {inserted : Document} (h : onInsert updates setOnInsert id now = .ok inserted) :
    OrderedMap.keys inserted = (insertedKeys updates setOnInsert id).map Percent.escape := by
  obtain ⟨listed, hlisted, same⟩ := Outcome.bind_eq_ok_iff.mp h
  obtain rfl := Except.ok.inj same
  have hnames : listed.map Prod.fst = (OrderedMap.keys (untouched updates setOnInsert)).map Percent.escape :=
    Bson.keys_ofFields hlisted
  have hid : Percent.escape FieldName.physicalId = FieldName.physicalId := escape_of_mem_reserved (by decide)
  have hcreated : Percent.escape FieldName.physicalCreatedAt = FieldName.physicalCreatedAt := escape_of_mem_reserved (by decide)
  have hkeys : OrderedMap.keys ((id.map fun id => (FieldName.physicalId, Bson.string id)).toList ++
      [(FieldName.physicalCreatedAt, .instant now.millis)] ++ listed) = (insertedKeys updates setOnInsert id).map Percent.escape := by
    rw [OrderedMap.keys, insertedKeys, List.map_append, hnames]
    cases id <;> simp [hid, hcreated]
  -- the own fields and the listed ones stay side by side, because all of their names are distinct
  rw [OrderedMap.extend_eq_append, hkeys]
  rw [OrderedMap.Distinct, hkeys]
  exact List.Nodup.map (fun _ _ => Percent.escape_injective) (hchecked.nodup_insertedKeys id)

section Paths

variable {now : Instant} {changes : Changes} (h : ofUpsert updates setOnInsert id now = .ok changes)

include h

/-- The document of an upsert has the places of the upsert, in some order. -/
theorem paths_ofUpsert : (paths changes.document).Perm ((places updates setOnInsert id).map written) := by
  obtain ⟨updated, inserted, hupdate, hinsert, rfl⟩ := ofUpsert_eq_ok_iff.mp h
  obtain ⟨listed, hlisted, rfl⟩ := ofUpdates_eq_ok_iff.mp hupdate
  have hlist : (paths listed.document).Perm ((updatedPlaces updates).map written) := by
    have hperm := paths_foldlM hchecked.distinctUpdates hlisted fun _ _ _ hnone => absurd hnone List.not_mem_nil
    rwa [show paths (document []) = [] from rfl, List.append_nil] at hperm
  have hnew : ∀ place ∈ paths listed.document, place.2 ≠ FieldName.physicalUpdatedAt := by
    intro place hplace
    obtain ⟨_, hmem, rfl⟩ := List.mem_map.mp (hlist.mem_iff.mp hplace)
    obtain ⟨entry, hentry, rfl⟩ := List.mem_map.mp hmem
    have hkey := hchecked.updatesFree entry.1 (List.mem_map_of_mem hentry)
    exact (ne_escape_of_not_mem_reserved hkey (by decide)).symm
  have hstamped := (paths_add hnew .set (.instant now.millis)).trans (hlist.cons (Operator.set.name, FieldName.physicalUpdatedAt))
  have hwritten : written (.set, FieldName.physicalUpdatedAt) = (Operator.set.name, FieldName.physicalUpdatedAt) :=
    congrArg (Prod.mk _) (escape_of_mem_reserved (by decide))
  have hrest : paths (document [(.setOnInsert, inserted)]) =
      ((insertedKeys updates setOnInsert id).map fun key => (Operator.setOnInsert, key)).map written := by
    rw [paths_cons, hchecked.keys_onInsert hinsert, List.map_map, List.map_map]
    exact List.append_nil _
  rw [paths_append, hrest, places, List.map_append, List.map_cons, hwritten]
  exact hstamped.append_right _

theorem mem_paths_iff {place : String × String} :
    place ∈ paths changes.document ↔ ∃ source ∈ places updates setOnInsert id, written source = place :=
  (hchecked.paths_ofUpsert h).mem_iff.trans List.mem_map

theorem nodup_paths : ((paths changes.document).map Prod.snd).Nodup := by
  have hnames : ((places updates setOnInsert id).map written).map Prod.snd =
      ((places updates setOnInsert id).map Prod.snd).map Percent.escape := by
    rw [List.map_map, List.map_map]
    rfl
  rw [((hchecked.paths_ofUpsert h).map Prod.snd).nodup_iff, hnames]
  exact List.Nodup.map (fun _ _ => Percent.escape_injective) (hchecked.nodup_places id)

/-- A path that is listed is listed once. -/
theorem operatorsOf_of_mem {place : String × String} (hplace : place ∈ paths changes.document) :
    operatorsOf changes.document place.2 = [place.1] :=
  congrArg (List.map Prod.fst) (filter_path_of_mem (hchecked.nodup_paths h) hplace)

/-- A key stands under the operator of its place and nowhere else. -/
theorem operatorsOf_of_mem_places {operator : Operator} (hplace : (operator, key) ∈ places updates setOnInsert id) :
    operatorsOf changes.document (Percent.escape key) = [operator.name] :=
  hchecked.operatorsOf_of_mem h ((hchecked.mem_paths_iff h).mpr ⟨_, hplace, rfl⟩)

theorem operatorsOf_of_not_mem (hkey : key ∉ (places updates setOnInsert id).map Prod.snd) :
    operatorsOf changes.document (Percent.escape key) = [] := by
  rw [operatorsOf, List.filter_eq_nil_iff.mpr, List.map_nil]
  intro place hplace hsame
  obtain ⟨source, hsource, rfl⟩ := (hchecked.mem_paths_iff h).mp hplace
  exact hkey (Percent.escape_injective (of_decide_eq_true hsame) ▸ List.mem_map_of_mem hsource)

theorem operatorsOf_id : operatorsOf changes.document FieldName.physicalId = (id.map fun _ => Operator.setOnInsert.name).toList := by
  have hid : Percent.escape FieldName.physicalId = FieldName.physicalId := escape_of_mem_reserved (by decide)
  rw [← hid]
  cases id with
  | some id =>
    have hkey : FieldName.physicalId ∈ insertedKeys updates setOnInsert (some id) := mem_insertedKeys_iff.mpr (Or.inl ⟨rfl, rfl⟩)
    exact hchecked.operatorsOf_of_mem_places h (mem_places_of_insertedKeys hkey)
  | none =>
    refine hchecked.operatorsOf_of_not_mem h ?_
    rw [keys_places, List.mem_append, List.mem_cons, mem_insertedKeys_iff]
    rintro ((hsame | hkey) | ⟨hnone, -⟩ | hsame | ⟨hkey, -⟩)
    · exact absurd hsame (by decide)
    · exact hchecked.updatesFree _ hkey (by decide)
    · cases hnone
    · exact absurd hsame (by decide)
    · exact hchecked.insertsFree _ hkey (by decide)

end Paths

end Checked

end Changes

end Documents

/-! ### Upserts that fail -/

/-- Whether an update adds something to a field that is no number, or multiplies the field by it. -/
def Update.lacksNumber : Update → Bool
  | increment value | multiply value => !value.isNumeric
  | _ => false

namespace Documents

theorem exists_number_iff {update : Update} {value : Value} :
    (∃ bson, (update.requireNumber value >>= fun _ => Bson.ofValue value) = .ok bson) ↔
      (!value.isNumeric) = false ∧ ∀ other ∈ [value], Bson.AllFit other := by
  rw [List.forall_mem_singleton, ← Bson.exists_ofValue_iff_allFit, Update.requireNumber]
  cases value.isNumeric with
  | true => exact (and_iff_right rfl).symm
  | false =>
    refine iff_of_false ?_ fun h => Bool.noConfusion h.1
    rintro ⟨_, h⟩
    cases h

theorem exists_operand_iff {update : Update} :
    (∃ bson, operand update = .ok bson) ↔ update.lacksNumber = false ∧ ∀ value ∈ update.values, Bson.AllFit value := by
  cases update with
  | set value | max value | min value | push value =>
    have hvalues : (∀ other ∈ [value], Bson.AllFit other) ↔ Bson.AllFit value := List.forall_mem_singleton
    exact Bson.exists_ofValue_iff_allFit.trans (hvalues.symm.trans (and_iff_right rfl).symm)
  | increment value | multiply value => exact exists_number_iff
  | removeAll values =>
    have hforms : (∃ bson, operand (.removeAll values) = .ok bson) ↔ ∃ forms, Bson.ofValues values = .ok forms := by
      simp only [operand, Outcome.map_eq_ok_iff]
      constructor
      · rintro ⟨_, forms, hforms, -⟩
        exact ⟨forms, hforms⟩
      · rintro ⟨forms, hforms⟩
        exact ⟨_, forms, hforms, rfl⟩
    exact hforms.trans (Bson.exists_ofValues_iff.trans (and_iff_right rfl).symm)
  | unset | popFirst | popLast =>
    exact iff_of_true ⟨_, rfl⟩ ⟨rfl, fun _ hnone => absurd hnone List.not_mem_nil⟩

namespace Changes

/-- A value that an upsert writes: of an update, or under a key to set on insert that is not updated. -/
inductive Carries (updates : Updates) (setOnInsert : Fields) (value : Value) : Prop where
  | updated {key : String} {update : Update} (h : (key, update) ∈ updates) (hvalue : value ∈ update.values)
  | inserted {key : String} (h : (key, value) ∈ setOnInsert) (hkey : key ∉ OrderedMap.keys updates)

variable {updates : Updates} {setOnInsert : Fields}

namespace Checked

variable (hchecked : Checked updates setOnInsert)

include hchecked

theorem exists_ofUpdates_iff (now : Instant) :
    (∃ updated, ofUpdates updates now = .ok updated) ↔ ∀ entry ∈ updates, ∃ bson, operand entry.2 = .ok bson := by
  have hid : FieldName.physicalId ∉ OrderedMap.keys updates := fun hmem => hchecked.updatesFree _ hmem (by decide)
  constructor
  · rintro ⟨updated, h⟩ entry hentry
    have hkey := hchecked.updatesFree entry.1 (List.mem_map_of_mem hentry)
    obtain ⟨bson, hbson, -⟩ := entries_ofUpdates_of_get? h hkey hchecked.distinctUpdates
      (OrderedMap.get?_of_mem hchecked.distinctUpdates hentry)
    exact ⟨bson, hbson⟩
  · exact fun hoperands => (Changes.exists_ofUpdates_iff hoperands).mpr hid

theorem exists_ofUpsert_iff (id : Option String) (now : Instant) : (∃ changes, ofUpsert updates setOnInsert id now = .ok changes) ↔
    (∀ entry ∈ updates, entry.2.lacksNumber = false) ∧ ∀ value, Carries updates setOnInsert value → Bson.AllFit value := by
  have hinserts : (∃ inserted, onInsert updates setOnInsert id now = .ok inserted) ↔
      ∀ entry ∈ untouched updates setOnInsert, Bson.AllFit entry.2 := by
    rw [← Bson.exists_ofFields_iff]
    constructor
    · rintro ⟨inserted, h⟩
      obtain ⟨listed, hlisted, -⟩ := Outcome.bind_eq_ok_iff.mp h
      exact ⟨listed, hlisted⟩
    · rintro ⟨listed, hlisted⟩
      exact ⟨_, Outcome.bind_eq_ok_iff.mpr ⟨listed, hlisted, rfl⟩⟩
  have hboth : (∃ changes, ofUpsert updates setOnInsert id now = .ok changes) ↔
      (∀ entry ∈ updates, ∃ bson, operand entry.2 = .ok bson) ∧ ∀ entry ∈ untouched updates setOnInsert, Bson.AllFit entry.2 := by
    simp only [ofUpsert_eq_ok_iff]
    rw [← hchecked.exists_ofUpdates_iff now, ← hinserts]
    constructor
    · rintro ⟨_, updated, inserted, hupdated, hinserted, -⟩
      exact ⟨⟨updated, hupdated⟩, inserted, hinserted⟩
    · rintro ⟨⟨updated, hupdated⟩, inserted, hinserted⟩
      exact ⟨_, updated, inserted, hupdated, hinserted, rfl⟩
  rw [hboth]
  simp only [exists_operand_iff]
  constructor
  · rintro ⟨hupdates, huntouched⟩
    refine ⟨fun entry hentry => (hupdates entry hentry).1, fun value hcarries => ?_⟩
    cases hcarries with
    | updated h hvalue => exact (hupdates _ h).2 value hvalue
    | inserted h hkey => exact huntouched _ (mem_untouched_iff.mpr ⟨h, hkey⟩)
  · rintro ⟨hnumbers, hfits⟩
    refine ⟨fun entry hentry => ⟨hnumbers entry hentry, fun value hvalue => hfits value (.updated hentry hvalue)⟩, ?_⟩
    intro entry hentry
    obtain ⟨hmem, hkey⟩ := mem_untouched_iff.mp hentry
    exact hfits _ (.inserted hmem hkey)

end Checked

/-- Updates under three operators, one of them of a key that is also to be set on insert. -/
def visited : Updates := [("visits", .increment (.integer 1)), ("a.b", .push .null), ("seen", .increment (.number ⟨0⟩))]

end Changes

end Documents

end ObjectStore
