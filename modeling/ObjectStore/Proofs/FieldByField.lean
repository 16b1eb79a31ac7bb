import ObjectStore.Proofs.Memory.Kept

/-!
# Updates that act on each field alone

The updates of a record are applied one after another, each to the record that the others have left. Yet none of them touches a name that a later one reads, so that each works on the value that its field had at first: the names of updates are distinct, and a field is written or removed under its own name only. It follows that the order of the updates is no matter. The same is true of the three writes that apply updates: to a stored record, to the data of a draft and to the seed of an update-or-insert.
-/

namespace ObjectStore

/-- Whether a write of updates acts on each field of a record alone. -/
structure ActsFieldByField (write : Updates → Outcome Fields) (record : Fields) (updates : Updates) : Prop where
  /-- It succeeds when every update can be applied to the old value of its field. -/
  succeeds_iff : (∃ result, write updates = .ok result) ↔
    ∀ key update, (key, update) ∈ updates → ∃ value, update.apply (OrderedMap.get? record key) = .ok value
  /-- It leaves in a field what the update makes of the old value, or no field if that is nothing. -/
  updated : ∀ result, write updates = .ok result → ∀ key update, (key, update) ∈ updates →
    update.apply (OrderedMap.get? record key) = .ok (OrderedMap.get? result key)
  kept : ∀ result, write updates = .ok result → ∀ key, key ∉ OrderedMap.keys updates →
    OrderedMap.get? result key = OrderedMap.get? record key
  /-- In another order the updates fail as well, or they leave the same fields. -/
  reordered : ∀ others : Updates, others.Perm updates →
    ((∃ failure, write updates = .error failure) ∧ ∃ failure, write others = .error failure) ∨
      ∃ result other, write updates = .ok result ∧ write others = .ok other ∧ other.Perm result

namespace ActsFieldByField

variable {write same : Updates → Outcome Fields} {record : Fields} {updates : Updates}

/-- Only what is written for the updates in some order matters. -/
theorem congr (h : ActsFieldByField write record updates) (hsame : ∀ others : Updates, others.Perm updates → same others = write others) :
    ActsFieldByField same record updates := by
  have hself := hsame updates (List.Perm.refl updates)
  refine ⟨?_, ?_, ?_, fun others hperm => ?_⟩
  · rw [hself]
    exact h.succeeds_iff
  · rw [hself]
    exact h.updated
  · rw [hself]
    exact h.kept
  · rw [hself, hsame others hperm]
    exact h.reordered others hperm

end ActsFieldByField

namespace Updates

variable {updates : Updates} {record : Fields}

theorem exists_applyTo_iff (hupdates : updates.Distinct) (hrecord : record.Distinct) :
    (∃ result, updates.applyTo record = .ok result) ↔
      ∀ key update, (key, update) ∈ updates → ∃ value, update.apply (OrderedMap.get? record key) = .ok value := by
  constructor
  · rintro ⟨result, hresult⟩ key update hentry
    exact ⟨_, apply_of_applyTo hupdates hrecord hresult (OrderedMap.get?_of_mem hupdates hentry)⟩
  · intro h
    induction updates generalizing record with
    | nil => exact ⟨record, rfl⟩
    | cons entry rest ih =>
      obtain ⟨name, first⟩ := entry
      obtain ⟨hname, hrest⟩ := List.nodup_cons.mp hupdates
      obtain ⟨value, hvalue⟩ := h name first List.mem_cons_self
      -- What the first update writes is not read by any of the others.
      have hothers : ∀ key update, (key, update) ∈ rest →
          ∃ result, update.apply (OrderedMap.get? (OrderedMap.put record name value) key) = .ok result := by
        intro key update hentry
        have hne : name ≠ key := by
          rintro rfl
          exact hname (OrderedMap.mem_keys_iff.mpr ⟨update, hentry⟩)
        rw [OrderedMap.get?_put_of_ne hne]
        exact h key update (List.mem_cons_of_mem _ hentry)
      obtain ⟨result, hresult⟩ := ih hrest (OrderedMap.distinct_put hrecord name value) hothers
      refine ⟨result, ?_⟩
      rw [applyTo_cons, hvalue]
      exact hresult

theorem perm_of_applyTo (hupdates : updates.Distinct) (hrecord : record.Distinct) {others : Updates} (hperm : others.Perm updates)
    {result other : Fields} (hresult : updates.applyTo record = .ok result) (hother : others.applyTo record = .ok other) :
    other.Perm result := by
  have hothers := hupdates.of_perm hperm
  refine OrderedMap.perm_of_get?_eq (distinct_applyTo hother hrecord) (distinct_applyTo hresult hrecord) fun key => ?_
  cases hkey : OrderedMap.get? updates key with
  | none =>
    have hnone := OrderedMap.get?_eq_none_iff.mp hkey
    have hnoneOther : key ∉ OrderedMap.keys others := fun hmem => hnone ((hperm.map Prod.fst).mem_iff.mp hmem)
    rw [get?_applyTo_of_not_mem hother hnoneOther, get?_applyTo_of_not_mem hresult hnone]
  | some update =>
    have hentry := hperm.mem_iff.mpr (OrderedMap.mem_of_get? hkey)
    have hvalue := apply_of_applyTo hupdates hrecord hresult hkey
    have hsame := apply_of_applyTo hothers hrecord hother (OrderedMap.get?_of_mem hothers hentry)
    exact Except.ok.inj (hsame.symm.trans hvalue)

theorem actsFieldByField (hupdates : updates.Distinct) (hrecord : record.Distinct) :
    ActsFieldByField (fun updates => updates.applyTo record) record updates := by
  refine ⟨exists_applyTo_iff hupdates hrecord, ?_, ?_, fun others hperm => ?_⟩
  · intro result hresult key update hentry
    exact apply_of_applyTo hupdates hrecord hresult (OrderedMap.get?_of_mem hupdates hentry)
  · intro result hresult key hkey
    exact get?_applyTo_of_not_mem hresult hkey
  · have halike : (∃ other, others.applyTo record = .ok other) ↔ ∃ result, updates.applyTo record = .ok result := by
      rw [exists_applyTo_iff hupdates hrecord, exists_applyTo_iff (hupdates.of_perm hperm) hrecord]
      exact forall₂_congr fun key update => imp_congr_left hperm.mem_iff
    cases hresult : updates.applyTo record with
    | ok result =>
      obtain ⟨other, hother⟩ := halike.mpr ⟨result, hresult⟩
      exact .inr ⟨result, other, rfl, hother, perm_of_applyTo hupdates hrecord hperm hresult hother⟩
    | error failure =>
      cases hother : others.applyTo record with
      | error second => exact .inl ⟨⟨failure, rfl⟩, second, rfl⟩
      | ok other =>
        obtain ⟨result, hok⟩ := halike.mp ⟨other, hother⟩
        rw [hresult] at hok
        cases hok

end Updates

theorem Memory.applyUpdates_eq {updates : Updates} (h : FieldName.physicalId ∉ OrderedMap.keys updates) (record : Fields) :
    Memory.applyUpdates updates record = updates.applyTo record := by
  induction updates generalizing record with
  | nil => rfl
  | cons entry rest ih =>
    obtain ⟨name, update⟩ := entry
    obtain ⟨hname, hrest⟩ := not_or.mp fun hmem => h (List.mem_cons.mpr hmem)
    have hid : name ≠ "_id" := Ne.symm hname
    rw [Memory.applyUpdates, List.foldlM_cons, Updates.applyTo_cons]
    dsimp only
    rw [if_neg hid]
    cases update.apply (OrderedMap.get? record name) with
    | error failure => rfl
    | ok value => exact ih hrest _

/-- All three writes of updates act on each field alone and in any order. -/
theorem updates_act_field_by_field {updates : Updates} (hupdates : updates.Distinct) {record : Fields} (hrecord : record.Distinct)
    {object : Object} (hobject : object.data.Distinct) (query : FindOneQuery) :
    (FieldName.physicalId ∉ OrderedMap.keys updates →
        ActsFieldByField (fun updates => Memory.applyUpdates updates record) record updates) ∧
      ActsFieldByField (fun updates => Draft.insertFields { object, mutations := updates }) object.data updates ∧
      ActsFieldByField (fun updates => FindOneQuery.upsertSeed { query with update := updates }) query.seedFields updates := by
  refine ⟨fun hid => ?_, Updates.actsFieldByField hupdates hobject, Updates.actsFieldByField hupdates query.distinct_seedFields⟩
  refine (Updates.actsFieldByField hupdates hrecord).congr fun others hperm => Memory.applyUpdates_eq ?_ record
  exact fun hmem => hid ((hperm.map Prod.fst).mem_iff.mp hmem)

/-- Updates that remove a field, make a field and compute with a field. -/
def Updates.threefold : Updates := [("old", .unset), ("tags", .push (.string "b")), ("visits", .increment (.integer 1))]

theorem threefold_acts_field_by_field :
    ActsFieldByField (fun updates => Memory.applyUpdates updates [("visits", .integer 41), ("old", .null)])
        [("visits", .integer 41), ("old", .null)] .threefold ∧
      ActsFieldByField (fun updates => Draft.insertFields { object := { className := "T", data := [("tags", .array [])] }, mutations := updates })
        [("tags", .array [])] .threefold ∧
      ActsFieldByField (fun updates => FindOneQuery.upsertSeed { className := "T", update := updates, setOnInsert := [("visits", .null)] })
        (FindOneQuery.seedFields { className := "T", setOnInsert := [("visits", .null)] }) .threefold := by
  obtain ⟨hstored, hdraft, hseed⟩ := @updates_act_field_by_field .threefold (by decide)
    [("visits", .integer 41), ("old", .null)] (by decide) { className := "T", data := [("tags", .array [])] } (by decide)
    { className := "T", setOnInsert := [("visits", .null)] }
  exact ⟨hstored (by decide), hdraft, hseed⟩

example : Memory.applyUpdates .threefold [("visits", .integer 41), ("old", .null)] =
    .ok [("visits", .integer 42), ("tags", .array [.string "b"])] := rfl

end ObjectStore
