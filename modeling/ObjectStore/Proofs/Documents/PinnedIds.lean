import ObjectStore.Proofs.Documents.Dialogue
import ObjectStore.Proofs.Documents.Paths
import ObjectStore.Proofs.FieldByField
import ObjectStore.Proofs.Memory.Identifiers

/-!
# Upserts under a fixed id

A document database inserts the id that the filter of an upsert fixes, so the changes may not bring another one. That is why the store looks for an id in the record that the upsert would insert. If there is one, it draws none, and it makes no more than two attempts. The filters are the only source of this id: they fix it by an equality with a literal that stands alone or under conjunctions. But the record can be made only if every update can be applied to what its field starts from. Where one cannot, the store draws ids although the filters fix one, sends them along, and goes on for as long as they are taken.
-/

namespace ObjectStore

/-! ### Fixed fields -/

/-- Whether a predicate fixes a field: it is an equality of the field and a literal, either way round, or a conjunction with a part that fixes the field. -/
inductive Predicate.Fixes (key : String) : Predicate → Prop where
  | left (value : Value) : Fixes key (.compare .equal (.key key) (.literal value))
  | right (value : Value) : Fixes key (.compare .equal (.literal value) (.key key))
  | all {parts : List Predicate} {part : Predicate} (hmem : part ∈ parts) (hpart : Fixes key part) : Fixes key (.all parts)

namespace Predicate

variable {key : String}

theorem fixes_left_iff {name : String} {value : Value} : Fixes key (compare .equal (.key name) (.literal value)) ↔ key ∈ [name] := by
  rw [List.mem_singleton]
  constructor
  · rintro ⟨⟩
    rfl
  · rintro rfl
    exact .left value

theorem fixes_right_iff {name : String} {value : Value} : Fixes key (compare .equal (.literal value) (.key name)) ↔ key ∈ [name] := by
  rw [List.mem_singleton]
  constructor
  · rintro ⟨⟩
    rfl
  · rintro rfl
    exact .right value

theorem fixes_all_iff {parts : List Predicate} : Fixes key (all parts) ↔ ∃ part ∈ parts, part.Fixes key := by
  constructor
  · rintro ⟨⟩
    exact ⟨_, ‹_›, ‹_›⟩
  · rintro ⟨part, hmem, hpart⟩
    exact .all hmem hpart

mutual

theorem fixes_iff (predicate : Predicate) : predicate.Fixes key ↔ key ∈ OrderedMap.keys predicate.equalities := by
  cases predicate with
  | compare op lhs rhs =>
    cases op with
    | equal =>
      cases lhs with
      | key name =>
        cases rhs with
        | key other => exact iff_of_false nofun List.not_mem_nil
        | literal value => exact fixes_left_iff
      | literal value =>
        cases rhs with
        | key name => exact fixes_right_iff
        | literal other => exact iff_of_false nofun List.not_mem_nil
    | _ => cases lhs <;> cases rhs <;> exact iff_of_false nofun List.not_mem_nil
  | all parts => exact fixes_all_iff.trans (exists_fixes_iff parts)
  | not inner => exact iff_of_false nofun List.not_mem_nil
  | elementOf element collection => exact iff_of_false nofun List.not_mem_nil
  | notElementOf element collection => exact iff_of_false nofun List.not_mem_nil
  | between value low high => exact iff_of_false nofun List.not_mem_nil
  | notBetween value low high => exact iff_of_false nofun List.not_mem_nil
  | pattern kind key text => exact iff_of_false nofun List.not_mem_nil
  | any parts => exact iff_of_false nofun List.not_mem_nil
termination_by structural predicate

theorem exists_fixes_iff (parts : List Predicate) : (∃ part ∈ parts, part.Fixes key) ↔ key ∈ OrderedMap.keys (equalitiesOfList parts) := by
  cases parts with
  | nil => exact iff_of_false nofun List.not_mem_nil
  | cons part parts =>
    rw [equalitiesOfList, OrderedMap.keys, List.map_append, List.mem_append, List.exists_mem_cons_iff]
    exact or_congr (fixes_iff part) (exists_fixes_iff parts)
termination_by structural parts

end

end Predicate

namespace Documents

theorem pinsId_eq_true_iff {query : FindOneQuery} : pinsId query = true ↔
    ∃ seed, query.upsertSeed = .ok seed ∧ OrderedMap.contains seed FieldName.physicalId = true := by
  rw [pinsId]
  cases query.upsertSeed with
  | ok seed => simp
  | error failure => simp

section Checked

variable {query : FindOneQuery}
  (hnames : FieldName.rejectReserved (OrderedMap.keys query.update ++ OrderedMap.keys query.setOnInsert) = .ok ())

include hnames

/-- An id is found exactly if the filters fix one and all updates can be applied. -/
theorem pinsId_toPhysical_iff : pinsId query.toPhysical = true ↔
    (∃ filter ∈ query.toPhysical.filters, filter.Fixes FieldName.physicalId) ∧
      ∀ key update, (key, update) ∈ query.toPhysical.update →
        ∃ value, update.apply (OrderedMap.get? query.toPhysical.seedFields key) = .ok value := by
  have hdistinct : query.toPhysical.update.Distinct := OrderedMap.distinct_ofList _
  rw [pinsId_eq_true_iff, ← Updates.exists_applyTo_iff hdistinct query.toPhysical.distinct_seedFields, Predicate.exists_fixes_iff]
  constructor
  · rintro ⟨seed, hseed, hcontains⟩
    refine ⟨Decidable.byContradiction fun hnot => ?_, seed, hseed⟩
    rw [OrderedMap.contains, Memory.get?_seed_of_not_fixesId hnames hseed hnot] at hcontains
    cases hcontains
  · rintro ⟨hfixes, seed, hseed⟩
    obtain ⟨value, hvalue, -⟩ := Memory.exists_seed_of_fixesId hnames hseed hfixes
    refine ⟨seed, hseed, ?_⟩
    rw [OrderedMap.contains, hvalue]
    rfl

theorem checked_toPhysical : Changes.Checked query.toPhysical.update query.toPhysical.setOnInsert where
  distinctUpdates := OrderedMap.distinct_ofList _
  distinctInserts := OrderedMap.distinct_ofList _
  updatesFree key hkey hreserved := Memory.not_mem_keys_of_rejectReserved hnames (List.subset_append_left _ _) key
    (FieldName.isReserved_of_mem (List.mem_append_right _ hreserved)) hkey
  insertsFree key hkey hreserved := Memory.not_mem_keys_of_rejectReserved hnames (List.subset_append_right _ _) key
    (FieldName.isReserved_of_mem (List.mem_append_right _ hreserved)) hkey

end Checked

/-! ### Attempts -/

/-- The command of an attempt at an upsert. -/
def upserting (query : FindOneQuery) (filter : Filter) (changes : Changes) : Command :=
  .updateOne (Session.collection query.className) filter changes (FindOneOptions.ofQuery query) true

/-- The request for an id, if one is drawn. -/
def drawn (id : Option String) : Trace := (id.map fun id => ⟨.drawId, id⟩).toList

/-- An attempt: it draws an id unless one is pinned, takes a stamp, and sends at most one command, whose changes are made of both. -/
inductive Attempted (query : FindOneQuery) (inTransaction pinned : Bool) : Trace → Prop where
  | unsent (id : Option String) (now : Instant) (hid : id.isSome = !pinned) :
      Attempted query inTransaction pinned (drawn id ++ [⟨.now, now⟩])
  | sent (id : Option String) (now : Instant) (hid : id.isSome = !pinned) {filter : Filter} {changes : Changes}
      (hchanges : Changes.ofUpsert query.update query.setOnInsert id now = .ok changes)
      (answer : Except ServerError (Option Document)) :
      Attempted query inTransaction pinned
        (drawn id ++ [⟨.now, now⟩, ⟨.run inTransaction (upserting query filter changes), answer⟩])

namespace Dialogue

variable {inTransaction pinned : Bool} {patience : Nat} {query : FindOneQuery} {trace : Trace}

theorem course_freshId? {id : Option String} (h : Course ((session inTransaction patience).freshId? pinned) trace id) :
    id.isSome = !pinned ∧ trace = drawn id := by
  cases pinned with
  | true =>
    obtain ⟨rfl, rfl⟩ := course_pure h
    exact ⟨rfl, rfl⟩
  | false =>
    obtain ⟨text, htext, rfl⟩ := course_map h
    exact ⟨rfl, course_ask htext⟩

theorem course_sent {filter : Filter} {changes : Changes} {outcome : Outcome (Option Object)}
    (h : Course (Session.returned query.className ((session inTransaction patience).run (upserting query filter changes))) trace outcome) :
    ∃ answer : Except ServerError (Option Document), trace = [⟨.run inTransaction (upserting query filter changes), answer⟩] := by
  obtain ⟨result, hrun⟩ := Course.andThen_pure h
  obtain ⟨answer, hask, -⟩ := course_map hrun
  refine ⟨answer, (course_ask hask).trans ?_⟩
  cases inTransaction <;> rfl

theorem attempted_upsertOnce {outcome : Outcome (Option Object)}
    (h : Course ((session inTransaction patience).upsertOnce query pinned) trace outcome) : Attempted query inTransaction pinned trace := by
  obtain ⟨first, id, rest, rfl, hfirst, hrest⟩ := Course.bind h
  obtain ⟨second, now, last, rfl, hsecond, hlast⟩ := Course.bind hrest
  obtain ⟨hid, rfl⟩ := course_freshId? hfirst
  obtain rfl := course_ask hsecond
  obtain rfl | ⟨changes, hchanges, hlast⟩ := Course.proceed hlast
  · exact .unsent id now hid
  obtain rfl | ⟨filter, -, hlast⟩ := Course.proceed hlast
  · exact .unsent id now hid
  obtain ⟨answer, rfl⟩ := course_sent hlast
  exact .sent id now hid hchanges answer

theorem attempted_upsert (hvalid : query.validate = .ok ())
    (hnames : FieldName.rejectReserved (OrderedMap.keys query.update ++ OrderedMap.keys query.setOnInsert) = .ok ())
    {outcome : Outcome (Option Object)} (h : Course ((session inTransaction patience).upsert query) trace outcome) :
    ∃ attempts : List Trace, trace = attempts.flatten ∧ (pinsId query.toPhysical = true → attempts.length ≤ 2) ∧
      ∀ attempt ∈ attempts, Attempted query.toPhysical inTransaction (pinsId query.toPhysical) attempt := by
  rw [Session.upsert, hvalid, hnames] at h
  obtain ⟨attempts, rfl, hlength, hattempts⟩ := Course.retryFrom h
  refine ⟨attempts, rfl, fun hpinned => ?_, fun attempt hattempt => ?_⟩
  · rw [hpinned] at hlength
    exact hlength
  · obtain ⟨_, _, hcourse⟩ := hattempts attempt hattempt
    exact attempted_upsertOnce hcourse

end Dialogue

theorem not_mem_drawn {inside : Bool} {command : Command} {answer : (Request.run inside command).Answer} (id : Option String) :
    (⟨.run inside command, answer⟩ : (request : Request) × request.Answer) ∉ drawn id := by
  intro hmem
  cases id with
  | none => exact List.not_mem_nil hmem
  | some id => cases congrArg Sigma.fst (List.mem_singleton.mp hmem)

/-- The command of an attempt lists an id to insert exactly if none is pinned. -/
theorem Attempted.command {query : FindOneQuery} {inTransaction pinned inside : Bool} {attempt : Trace} {command : Command}
    {answer : (Request.run inside command).Answer} (h : Attempted query inTransaction pinned attempt)
    (hchecked : Changes.Checked query.update query.setOnInsert) (hmem : ⟨.run inside command, answer⟩ ∈ attempt) :
    ∃ filter changes, command = upserting query filter changes ∧
      operatorsOf changes.document FieldName.physicalId = if pinned then [] else ["$setOnInsert"] := by
  cases h with
  | unsent id now hid =>
    rcases List.mem_append.mp hmem with hdrawn | hnow
    · exact absurd hdrawn (not_mem_drawn id)
    · cases congrArg Sigma.fst (List.mem_singleton.mp hnow)
  | sent id now hid hchanges other =>
    rcases List.mem_append.mp hmem with hdrawn | hlast
    · exact absurd hdrawn (not_mem_drawn id)
    rcases List.mem_cons.mp hlast with hnow | hrun
    · cases congrArg Sigma.fst hnow
    obtain ⟨-, rfl⟩ := Request.run.inj (congrArg Sigma.fst (List.mem_singleton.mp hrun))
    refine ⟨_, _, rfl, (hchecked.operatorsOf_id hchanges).trans ?_⟩
    cases pinned with
    | true =>
      obtain rfl := Option.not_isSome_iff_eq_none.mp (Bool.eq_false_iff.mp hid)
      rfl
    | false =>
      obtain ⟨text, rfl⟩ := Option.isSome_iff_exists.mp hid
      rfl

/-- An upsert that passes all checks takes the id for pinned exactly if the filters fix it and all updates can be applied to the fields that they start from. Whatever the database answers, such a call makes no more than two attempts, none of which draws an id or sends one to insert. Every other call draws an id for each attempt and sends it along to be inserted, and this although the filters fix one if it is an update that fails. -/
theorem upsert_pins_id_iff {query : FindOneQuery} (hvalid : query.validate = .ok ())
    (hnames : FieldName.rejectReserved (OrderedMap.keys query.update ++ OrderedMap.keys query.setOnInsert) = .ok ()) :
    (pinsId query.toPhysical = true ↔
      (∃ filter ∈ query.toPhysical.filters, filter.Fixes FieldName.physicalId) ∧
        ∀ key update, (key, update) ∈ query.toPhysical.update →
          ∃ value, update.apply (OrderedMap.get? query.toPhysical.seedFields key) = .ok value) ∧
    ∀ inTransaction patience trace outcome, Dialogue.Course ((Dialogue.session inTransaction patience).upsert query) trace outcome →
      ∃ attempts : List Trace, trace = attempts.flatten ∧ (pinsId query.toPhysical = true → attempts.length ≤ 2) ∧
        ∀ attempt ∈ attempts, Attempted query.toPhysical inTransaction (pinsId query.toPhysical) attempt ∧
          ∀ inside command answer, ⟨.run inside command, answer⟩ ∈ attempt →
            ∃ filter changes, command = upserting query.toPhysical filter changes ∧
              operatorsOf changes.document FieldName.physicalId = if pinsId query.toPhysical then [] else ["$setOnInsert"] := by
  refine ⟨pinsId_toPhysical_iff hnames, fun inTransaction patience trace outcome hcourse => ?_⟩
  obtain ⟨attempts, htrace, hlength, hattempts⟩ := Dialogue.attempted_upsert hvalid hnames hcourse
  refine ⟨attempts, htrace, hlength, fun attempt hattempt => ⟨hattempts attempt hattempt, fun inside command answer hmem => ?_⟩⟩
  exact (hattempts attempt hattempt).command (checked_toPhysical hnames) hmem

/-- An upsert that fixes the id and counts its calls in a field that starts from some value. -/
def counting (start : Value) : FindOneQuery where
  className := "T"
  filters := [.compare .equal (.key "id") (.literal (.string "A"))]
  update := [("n", .increment (.integer 1))]
  setOnInsert := [("n", start)]

/-- A database in which every id is taken. -/
def refusing : (request : Request) → request.Answer
  | .now => (default : Instant)
  | .drawId => "G"
  | .run _ _ | .more | .start _ | .commit | .abort => .error { source := .command, code := 11000, message := "index: _id_" }

/-- With a number to start from the id is pinned, and a database that refuses it is asked twice at the most, each time without another id. -/
theorem counting_number_pinned :
    let query := counting (.integer 1)
    query.validate = .ok () ∧
      FieldName.rejectReserved (OrderedMap.keys query.update ++ OrderedMap.keys query.setOnInsert) = .ok () ∧
      pinsId query.toPhysical = true ∧
      ∃ attempts : List Trace, attempts.length ≤ 2 ∧
        (((Dialogue.session false 3).upsert query).play refusing).1 = attempts.flatten ∧
        ∀ attempt ∈ attempts, ∀ inside command answer, ⟨.run inside command, answer⟩ ∈ attempt →
          ∃ filter changes, command = upserting query.toPhysical filter changes ∧
            operatorsOf changes.document FieldName.physicalId = [] := by
  intro query
  have hvalid : query.validate = .ok () := rfl
  obtain ⟨hpins, hcourses⟩ := upsert_pins_id_iff hvalid rfl
  have hpinned : pinsId query.toPhysical = true := by
    refine hpins.mpr ⟨⟨_, List.mem_cons_self, .left _⟩, fun key update hmem => ?_⟩
    cases List.mem_singleton.mp hmem
    exact ⟨_, rfl⟩
  obtain ⟨attempts, htrace, hlength, hattempts⟩ := hcourses false 3 _ _ (Dialogue.course_play refusing _)
  refine ⟨hvalid, rfl, hpinned, attempts, hlength hpinned, htrace, fun attempt hattempt inside command answer hmem => ?_⟩
  obtain ⟨filter, changes, hcommand, hlisted⟩ := (hattempts attempt hattempt).2 inside command answer hmem
  rw [hpinned] at hlisted
  exact ⟨filter, changes, hcommand, hlisted⟩

/-- With a text to start from the increment fails. Although the filter fixes the id, each attempt draws one and sends it to be inserted, and there is a third attempt. -/
theorem counting_text_not_pinned :
    let query := counting (.string "x")
    query.validate = .ok () ∧
      FieldName.rejectReserved (OrderedMap.keys query.update ++ OrderedMap.keys query.setOnInsert) = .ok () ∧
      (∃ filter ∈ query.toPhysical.filters, filter.Fixes "_id") ∧ pinsId query.toPhysical = false ∧
      ∃ (filter : Filter) (changes : Changes) (outcome : Outcome (Option Object)),
        let command := upserting query.toPhysical filter changes
        let attempt : Trace := [⟨.drawId, "G"⟩, ⟨.now, refusing .now⟩, ⟨.run false command, refusing (.run false command)⟩]
        operatorsOf changes.document "_id" = ["$setOnInsert"] ∧
          Dialogue.Course ((Dialogue.session false 3).upsert query) (attempt ++ attempt ++ attempt) outcome := by
  intro query
  have hcourse := Dialogue.course_play refusing ((Dialogue.session false 3).upsert query)
  refine ⟨rfl, rfl, ⟨_, List.mem_cons_self, .left _⟩, rfl, _, _, _, ?_, hcourse⟩
  rfl

end Documents

end ObjectStore
