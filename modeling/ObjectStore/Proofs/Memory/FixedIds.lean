import ObjectStore.Proofs.Memory.Identifiers

/-!
# Records that are looked up by the id that they were inserted under

An update-or-insert whose only filter fixes the id inserts its record under that id, spelled out if it is no string. But an id that is stored is a string, and a string equals no value of another kind. So if the id was given as a string, the same call finds the record from then on. If it was not, the record does not pass the filter that it was made from, and every further call tries to insert it again and fails for the id that the first one took.

That a call which finds a match never fails so takes one more fact: neither updates nor the reading of a record fail with a race.
-/

namespace ObjectStore

namespace Memory

variable {memory : Memory} {query : FindOneQuery} {seed : Fields} {value : Value}

/-! ### The last attempt -/

theorem ends_updateRaceless {table : Table} {stamp : Value} {post : Outcome (Option Fields) → Memory → Prop}
    (hnone : (∀ entry ∈ table, Predicate.passes query.predicate? entry.2 = false) → post (.ok none) memory)
    (hfailed : ∀ failure, failure.race? = none → post (.error failure) memory)
    (hsome : ∀ image after, post (.ok (some image)) after) : Ends (updateFirst table query stamp) memory post := by
  rw [updateFirst]
  cases hfirst : (selectEntries table query.asFind).head? with
  | none => exact hnone (head?_selectEntries_eq_none_iff.mp hfirst)
  | some entry =>
    refine ends_bind (ends_lift.mpr ?_)
    cases hupdated : applyUpdates query.update entry.2 with
    | error failure => exact hfailed failure (raceless_applyUpdates _ _ failure hupdated)
    | ok updated => exact ends_bind (ends_setTable.mpr (hsome _ _))

theorem conclusive_upsertOnce (hmatched : memory.Matched query) : Ends (upsertOnce query) memory Conclusive := by
  refine ends_bind (ends_now.mpr ?_)
  refine ends_bind (ends_openSame fun opened hopened => ?_)
  refine ends_bind (ends_updateRaceless (fun hnone => ?_) (fun failure hrace => ⟨.error hrace⟩) fun image after => ?_)
  · obtain ⟨entry, hentry, hpasses⟩ := hmatched
    have hmissed : Predicate.passes query.predicate? entry.2 = false := hnone entry hentry
    rw [hmissed] at hpasses
    cases hpasses
  · refine ends_bind (ends_lift.mpr ?_)
    cases himage : Object.ofRecord query.className image with
    | error failure => exact ⟨.error (Object.raceless_ofRecord _ _ failure himage)⟩
    | ok object => exact ⟨.ok _⟩

/-- What an attempt leaves that adds a record under an id that its filters fix. -/
structure Placed (className id : String) (start : Memory) (outcome : Outcome (Option Object)) (after : Memory) : Prop where
  raceless : outcome.Raceless
  placed : ∃ record, after.tableOf className = start.tableOf className ++ [(id, record)] ∧
    OrderedMap.get? record FieldName.physicalId = some (.string id)

theorem placed_upsertOnce (hseed : query.upsertSeed = .ok seed) (hvalue : OrderedMap.get? seed FieldName.physicalId = some value)
    (hnone : ¬memory.Matched query) (hfree : idText value ∉ OrderedMap.keys (memory.tableOf query.className)) :
    Ends (upsertOnce query) memory (Placed query.className (idText value) memory) := by
  refine ends_bind (ends_now.mpr ?_)
  refine ends_bind (ends_openSame fun opened hopened => ?_)
  refine ends_bind (ends_updateNone (passes_of_not_matched hnone) (ends_bind (ends_lift.mpr ?_)))
  rw [hseed]
  refine ends_bind ?_
  rw [hvalue]
  refine ends_seedFixed (ends_bind (ends_insertRecord (fun htaken => ?_) fun _ => ?_))
  · exact absurd (OrderedMap.contains_eq_true_iff.mp htaken) hfree
  · refine (ends_insertedAnswer query _ _).mono ?_
    rintro _ _ ⟨rfl, rfl⟩
    refine ⟨raceless_insertedAnswer query _, Fields.stamped (.string (idText value)) (.timestamp (memory.sources.now .micros).1) (seedRest seed), ?_, ?_⟩
    · rw [tableOf_setTable_self rfl]
      exact OrderedMap.insert_of_not_mem hfree _
    · exact Fields.get?_stamped (not_isReserved_of_mem_filter seed) _ _ rfl

/-! ### Calls -/

/-- A call that passes all checks, with the fields that it inserts if nothing matches. -/
structure Admitted (query : FindOneQuery) (seed : Fields) : Prop where
  valid : query.validate = .ok ()
  names : FieldName.rejectReserved (OrderedMap.keys query.update ++ OrderedMap.keys query.setOnInsert) = .ok ()
  seed : query.toPhysical.upsertSeed = .ok seed

theorem admitted_of_ok {patience : Nat} {answer : Option Object} {after : Memory}
    (hrun : (perform patience (.upsert query)).run.run memory = (.ok answer, after)) : ∃ seed, Admitted query seed := by
  have hvalid := validate_of_upsert_ok patience hrun
  cases hnames : FieldName.rejectReserved (OrderedMap.keys query.update ++ OrderedMap.keys query.setOnInsert) with
  | error failure =>
    rw [perform, hvalid, hnames] at hrun
    cases hrun
  | ok =>
    cases hseed : query.toPhysical.upsertSeed with
    | error failure =>
      have hfailed : (perform patience (.upsert query)).run.run memory = (.error failure, memory) := by
        refine run_eq_of_ends (ends_valid hvalid (ends_valid hnames (ends_bind (ends_lift.mpr ?_))))
        rw [hseed]
        rfl
      rw [hfailed] at hrun
      cases hrun
    | ok seed => exact ⟨seed, hvalid, hnames, hseed⟩

theorem Admitted.ends (h : Admitted query seed) (patience : Nat) {post : Outcome (Option Object) → Memory → Prop}
    (hattempt : Ends (upsertOnce query.toPhysical) memory post) (hconclusive : Ends (upsertOnce query.toPhysical) memory Conclusive) :
    Ends (perform patience (.upsert query)) memory post := by
  refine ends_valid h.valid (ends_valid h.names (ends_bind (ends_lift.mpr ?_)))
  rw [h.seed]
  exact ends_retryConclusive _ _ hattempt hconclusive

/-- Whether a call fails for an id that is taken. -/
def Collides (patience : Nat) (query : FindOneQuery) (memory : Memory) : Prop :=
  ∃ failure after, (perform patience (.upsert query)).run.run memory = (.error failure, after) ∧ failure.race? = some .duplicateId

theorem Admitted.not_collides (h : Admitted query seed) (patience : Nat) (hmatched : memory.Matched query.toPhysical) :
    ¬Collides patience query memory := by
  rintro ⟨failure, after, hrun, hrace⟩
  have hconclusive := conclusive_upsertOnce hmatched
  have hcall := (h.ends patience hconclusive hconclusive).of_run hrun
  rw [hcall.raceless failure rfl] at hrace
  cases hrace

/-! ### Repeated calls -/

theorem afterUpserts_preserves {patience : Nat} (kept : Memory → Prop)
    (hcall : ∀ memory, kept memory → Ends (perform patience (.upsert query)) memory fun _ after => kept after) (h : kept memory)
    (times : Nat) : kept (afterUpserts patience query times memory) := by
  induction times generalizing memory with
  | zero => exact h
  | succ times ih => exact ih (hcall memory h)

/-- A match stays one, and so no call fails for an id that is taken. -/
theorem not_collides_afterUpserts (hpins : Pins query) (h : Admitted query seed) (patience : Nat)
    (hmatched : memory.Matched query.toPhysical) (times : Nat) : ¬Collides patience query (afterUpserts patience query times memory) := by
  refine h.not_collides patience (afterUpserts_preserves (fun memory => memory.Matched query.toPhysical) ?_ hmatched times)
  exact fun memory hmatched => (upserted_perform hpins patience memory).mono fun _ _ hcall => hcall.matched (.inr hmatched)

/-- Where nothing matches and the id is taken, it stays so, and every call fails for it. -/
theorem collides_afterUpserts (h : Admitted query seed) (hvalue : OrderedMap.get? seed FieldName.physicalId = some value)
    (patience : Nat) (hnone : ¬memory.Matched query.toPhysical)
    (htaken : idText value ∈ OrderedMap.keys (memory.tableOf query.className)) (times : Nat) :
    Collides patience query (afterUpserts patience query times memory) := by
  have hrefused (current : Memory) (hsame : current.tables = memory.tables) :
      Ends (perform patience (.upsert query)) current (Refused query.className (idText value) current) := by
    refine refused_upsert h.valid h.names h.seed hvalue ?_ ?_ patience
    · rw [Matched, tableOf_congr hsame]
      exact hnone
    · rw [tableOf_congr hsame]
      exact htaken
  have hsame : (afterUpserts patience query times memory).tables = memory.tables :=
    afterUpserts_preserves (fun current => current.tables = memory.tables)
      (fun current hsame => (hrefused current hsame).mono fun _ _ hcall => hcall.tables.trans hsame) rfl times
  rcases hrun : (perform patience (.upsert query)).run.run (afterUpserts patience query times memory) with ⟨outcome, after⟩
  exact ⟨_, after, hrun.trans (congrArg (·, after) ((hrefused _ hsame).of_run hrun).failure), rfl⟩

/-! ### An id as the only filter -/

section Fixed

variable {literal : Value} (hfilters : query.filters = [Key.id.eq literal])

include hfilters

theorem get?_seed_of_fixed (h : Admitted query seed) : OrderedMap.get? seed FieldName.physicalId = some literal := by
  rw [get?_seed_physicalId h.names h.seed, show query.toPhysical.filters = query.filters.map Predicate.toPhysical from rfl, hfilters]
  rfl

/-- A stored id passes only if it was asked for as the string that it is. -/
theorem passes_fixed_iff {record : Fields} {id : String} (hid : OrderedMap.get? record FieldName.physicalId = some (.string id)) :
    Predicate.passes query.toPhysical.predicate? record = true ↔ literal = .string id := by
  have hpasses : Predicate.passes query.toPhysical.predicate? record = (Value.string id).looselyEquals literal := by
    rw [FindOneQuery.predicate?, show query.toPhysical.filters = query.filters.map Predicate.toPhysical from rfl, hfilters]
    show ((OrderedMap.get? record FieldName.physicalId).getD .null).looselyEquals literal = _
    rw [hid, Option.getD_some]
  rw [hpasses]
  constructor
  · exact fun h => Value.eq_of_looselyEquals_string (.inl h)
  · rintro rfl
    exact Value.looselyEquals_self rfl rfl

theorem pins_of_fixed (h : Admitted query seed) {text : String} (htext : literal = .string text) : Pins query := by
  have hfixed : Predicate.equalitiesOfList query.filters = [(FieldName.id, .string text)] := by
    rw [hfilters, htext]
    rfl
  have hplain := FieldName.rejectReserved_eq_ok_iff.mp h.names
  have hreserved : ¬FieldName.isReserved FieldName.id = false := by
    decide
  refine ⟨by rw [hfilters]; rfl, ?_, ?_, ?_, ?_⟩
  · rw [hfixed]
    exact List.nodup_singleton _
  · rw [hfixed]
    exact List.forall_mem_singleton.mpr (.inr ⟨rfl, text, rfl⟩)
  · rw [hfixed]
    exact List.forall_mem_singleton.mpr ⟨rfl, rfl⟩
  · rw [hfixed]
    exact List.forall_mem_singleton.mpr ⟨fun hmem => hreserved (hplain _ (List.mem_append_left _ hmem)),
      fun hmem => hreserved (hplain _ (List.mem_append_right _ hmem))⟩

end Fixed

theorem eq_string_idText_iff {literal : Value} : literal = .string (idText literal) ↔ literal.kind = .string := by
  cases literal <;> simp [Value.kind, idText]

/-- An update-or-insert by id that inserts a record adds it under the spelled-out id. The record passes the filter of the call if and only if the id was given as a string, and if and only if it was not, the same call fails for the taken id from then on. -/
theorem found_again_iff_string {patience : Nat} {memory : Memory} {query : FindOneQuery} {literal : Value}
    (hfilters : query.filters = [Key.id.eq literal]) (hnone : ¬memory.Matched query.toPhysical) {answer : Option Object} {after : Memory}
    (hrun : (perform patience (.upsert query)).run.run memory = (.ok answer, after)) :
    ∃ record, after.tableOf query.className = memory.tableOf query.className ++ [(idText literal, record)] ∧
      (Predicate.passes query.toPhysical.predicate? record = true ↔ literal.kind = .string) ∧
      ∀ times, Collides patience query (afterUpserts patience query times after) ↔ literal.kind ≠ .string := by
  obtain ⟨seed, hcall⟩ := admitted_of_ok hrun
  have hvalue := get?_seed_of_fixed hfilters hcall
  have hfree : idText literal ∉ OrderedMap.keys (memory.tableOf query.className) := by
    intro htaken
    cases ((refused_upsert hcall.valid hcall.names hcall.seed hvalue hnone htaken patience).of_run hrun).failure
  have hplaced := placed_upsertOnce hcall.seed hvalue hnone hfree
  obtain ⟨-, record, htable, hid⟩ :=
    (hcall.ends patience hplaced (hplaced.mono fun _ _ hdone => ⟨hdone.raceless⟩)).of_run hrun
  have htable : after.tableOf query.className = memory.tableOf query.className ++ [(idText literal, record)] := htable
  have hpasses : Predicate.passes query.toPhysical.predicate? record = true ↔ literal.kind = .string :=
    (passes_fixed_iff hfilters hid).trans eq_string_idText_iff
  have hentry : (idText literal, record) ∈ after.tableOf query.className := by
    rw [htable]
    exact List.mem_append_right _ (List.mem_singleton_self _)
  refine ⟨record, htable, hpasses, fun times => ⟨fun hcollides hstring => ?_, fun hother => ?_⟩⟩
  · have hpins := pins_of_fixed hfilters hcall (eq_string_idText_iff.mpr hstring)
    exact not_collides_afterUpserts hpins hcall patience ⟨_, hentry, hpasses.mpr hstring⟩ times hcollides
  · refine collides_afterUpserts hcall hvalue patience ?_ (OrderedMap.mem_keys_iff.mpr ⟨record, hentry⟩) times
    rintro ⟨entry, hmem, hmatches⟩
    have hmem : entry ∈ memory.tableOf query.className ++ [(idText literal, record)] := htable ▸ hmem
    rcases List.mem_append.mp hmem with hold | hnew
    · exact hnone ⟨entry, hold, hmatches⟩
    · obtain rfl := List.mem_singleton.mp hnew
      exact hother (hpasses.mp hmatches)

/-- An upsert of a dog by its id. -/
def dogById (id : Value) : FindOneQuery where
  className := "Dog"
  filters := [Key.id.eq id]
  update := [("visits", .increment (.integer 1))]

theorem not_matched_dogById {id : Value} (hother : id ≠ .string "A") : ¬oneDog.Matched (dogById id).toPhysical := by
  rintro ⟨entry, hentry, hpasses⟩
  obtain rfl := List.mem_singleton.mp hentry
  exact hother ((passes_fixed_iff rfl rfl).mp hpasses)

theorem dogById_found_again :
    (∃ answer after, (perform 2 (.upsert (dogById (.string "M")))).run.run oneDog = (.ok answer, after) ∧
      ∀ times, ¬Collides 2 (dogById (.string "M")) (afterUpserts 2 (dogById (.string "M")) times after)) ∧
    ∃ answer after, (perform 2 (.upsert (dogById (.integer 5)))).run.run oneDog = (.ok answer, after) ∧
      ∀ times, Collides 2 (dogById (.integer 5)) (afterUpserts 2 (dogById (.integer 5)) times after) := by
  constructor
  · obtain ⟨answer, after, hrun⟩ : ∃ answer after, (perform 2 (.upsert (dogById (.string "M")))).run.run oneDog = (.ok answer, after) :=
      ⟨_, _, rfl⟩
    obtain ⟨_, -, -, hagain⟩ := found_again_iff_string rfl (not_matched_dogById (by simp)) hrun
    exact ⟨answer, after, hrun, fun times hcollides => (hagain times).mp hcollides rfl⟩
  · obtain ⟨answer, after, hrun⟩ : ∃ answer after, (perform 2 (.upsert (dogById (.integer 5)))).run.run oneDog = (.ok answer, after) :=
      ⟨_, _, rfl⟩
    obtain ⟨_, -, -, hagain⟩ := found_again_iff_string rfl (not_matched_dogById (by simp)) hrun
    exact ⟨answer, after, hrun, fun times => (hagain times).mpr nofun⟩

/-- The record that is inserted for the id five does not pass the filter that it was made from, and the second call fails for its id. -/
theorem integer_id_not_found :
    ∃ answer record after, (perform 2 (.upsert (dogById (.integer 5)))).run.run oneDog = (.ok answer, after) ∧
      after.tableOf "Dog" = oneDog.tableOf "Dog" ++ [("5", record)] ∧
      Predicate.passes (dogById (.integer 5)).toPhysical.predicate? record = false ∧ Collides 2 (dogById (.integer 5)) after :=
  ⟨_, _, _, rfl, rfl, rfl, _, _, rfl, rfl⟩

end Memory

end ObjectStore
