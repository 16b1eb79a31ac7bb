import ObjectStore.Proofs.Memory.Kept
import ObjectStore.Proofs.Retry.Races

/-!
# One operation of the in-memory store

Each operation is followed step by step. What can fail comes before the tables are touched, with one exception: an upsert and an insertion make a missing class first. The new class is empty, though, so nothing in it is updated and no identifier in it is taken; and since every stored record can be read back, nothing fails after a table was written either.
-/

namespace ObjectStore

/-- The image of a record that a write returns. -/
def Returning.image {α : Type} : Returning → α → α → α
  | before, old, _ => old
  | after, _, new => new

namespace Memory

variable {α : Type} {memory : Memory}

/-! ### The parts of operations -/

theorem ends_openTable {className : String} {post : Outcome Table → Memory → Prop}
    (hthere : ∀ table, OrderedMap.get? memory.tables className = some table → post (.ok table) memory)
    (hmissing : OrderedMap.get? memory.tables className = none →
      post (.ok []) { memory with tables := OrderedMap.insert memory.tables className [] }) :
    Ends (openTable className) memory post := by
  refine ends_bind (ends_table?.mpr ?_)
  cases htable : OrderedMap.get? memory.tables className with
  | some table => exact hthere table htable
  | none => exact hmissing htable

theorem ends_insertRecord {className id : String} {table : Table} {record : Fields} {post : Outcome Unit → Memory → Prop}
    (htaken : OrderedMap.contains table id = true → post (.error (duplicateId className id)) memory)
    (hfree : OrderedMap.contains table id = false →
      post (.ok ()) { memory with tables := OrderedMap.insert memory.tables className (OrderedMap.insert table id record) }) :
    Ends (insertRecord className table id record) memory post := by
  rw [insertRecord]
  split
  · next h => exact htaken h
  · next h => exact hfree (Bool.eq_false_iff.mpr h)

/-- An identifier from a seed is the string that the seed has, or something else for which an identifier may have been drawn. -/
theorem ends_seedDrawn {seed : Option Value} {post : Outcome String → Memory → Prop}
    (hpost : ∀ id drawn, (∀ text, seed = some (.string text) → id = text) →
      (drawn = memory ∨ drawn = { memory with sources := memory.sources.draw.2 }) → post (.ok id) drawn) :
    Ends (seedId seed) memory post := by
  unfold seedId
  split
  · exact hpost _ memory (fun text htext => by injection htext with htext; injection htext) (.inl rfl)
  · next hother => exact hpost _ memory (fun text htext => absurd (Option.some.inj htext) (hother text)) (.inl rfl)
  · exact ends_drawId.mpr (hpost _ _ nofun (.inr rfl))

theorem ends_replaceHead {table : Table} {query : FindOneQuery} {stamp : Value} {post : Outcome (Option Fields) → Memory → Prop}
    (hnone : (selectEntries table query.asFind).head? = none → post (.ok none) memory)
    (hfailed : ∀ failure, table ≠ [] → post (.error failure) memory)
    (hsome : ∀ id before updated after image, (selectEntries table query.asFind).head? = some (id, before) →
      applyUpdates query.update before = .ok updated → after = OrderedMap.insert updated FieldName.physicalUpdatedAt stamp →
      image = query.returning.image before after →
      post (.ok (some (project query.includes image)))
        { memory with tables := OrderedMap.insert memory.tables query.className (OrderedMap.insert table id after) }) :
    Ends (updateFirst table query stamp) memory post := by
  rw [updateFirst]
  cases hfirst : (selectEntries table query.asFind).head? with
  | none => exact hnone hfirst
  | some entry =>
    obtain ⟨id, before⟩ := entry
    refine ends_bind (ends_lift.mpr ?_)
    cases hupdated : applyUpdates query.update before with
    | error failure => exact hfailed failure (List.ne_nil_of_mem (mem_of_mem_selectEntries (List.mem_of_head? hfirst)))
    | ok updated =>
      refine ends_bind (ends_setTable.mpr (hsome id before updated _ _ hfirst hupdated rfl ?_))
      cases query.returning <;> rfl

theorem ends_replaceMatch {table : Table} {query : FindOneQuery} {stamp : Value} {post : Outcome (Option Fields) → Memory → Prop}
    (hnone : (∀ entry ∈ table, Predicate.passes query.predicate? entry.2 = false) → post (.ok none) memory)
    (hfailed : ∀ failure, table ≠ [] → post (.error failure) memory)
    (hsome : ∀ id before updated after image, (id, before) ∈ matching table query.predicate? →
      applyUpdates query.update before = .ok updated → after = OrderedMap.insert updated FieldName.physicalUpdatedAt stamp →
      image = query.returning.image before after →
      post (.ok (some (project query.includes image)))
        { memory with tables := OrderedMap.insert memory.tables query.className (OrderedMap.insert table id after) }) :
    Ends (updateFirst table query stamp) memory post :=
  ends_replaceHead (fun hfirst => hnone (head?_selectEntries_eq_none_iff.mp hfirst)) hfailed
    fun id before updated after image hfirst =>
      hsome id before updated after image (mem_matching_of_mem_selectEntries (List.mem_of_head? hfirst))

/-- The first match is replaced by what the updates make of it, stamped anew, and a part of one of the two is returned. -/
theorem ends_replaceFirst {table : Table} {query : FindOneQuery} {stamp : Value} {post : Outcome (Option Fields) → Memory → Prop}
    (hnone : post (.ok none) memory) (hfailed : ∀ failure, table ≠ [] → post (.error failure) memory)
    (hsome : ∀ id before updated after image, (id, before) ∈ table → applyUpdates query.update before = .ok updated →
      after = OrderedMap.insert updated FieldName.physicalUpdatedAt stamp → (image = before ∨ image = after) →
      post (.ok (some (project query.includes image)))
        { memory with tables := OrderedMap.insert memory.tables query.className (OrderedMap.insert table id after) }) :
    Ends (updateFirst table query stamp) memory post := by
  refine ends_replaceMatch (fun _ => hnone) hfailed fun id before updated after image hentry hupdated hafter himage => ?_
  refine hsome id before updated after image (mem_matching_iff.mp hentry).1 hupdated hafter ?_
  cases hreturning : query.returning with
  | before => exact .inl (himage.trans (by rw [hreturning, Returning.image]))
  | after => exact .inr (himage.trans (by rw [hreturning, Returning.image]))

theorem ends_updateFirst {table : Table} {query : FindOneQuery} {last now : Int} (htable : KeptTable last table)
    (hupdates : ∀ name, FieldName.isReserved name = true → name ∉ OrderedMap.keys query.update) (hnow : last ≤ now)
    {post : Outcome (Option Fields) → Memory → Prop} (hnone : post (.ok none) memory)
    (hfailed : ∀ failure, table ≠ [] → post (.error failure) memory)
    (hsome : ∀ id before after image, (id, before) ∈ table → KeptRecord now id after → KeptRecord now id image →
      post (.ok (some (project query.includes image)))
        { memory with tables := OrderedMap.insert memory.tables query.className (OrderedMap.insert table id after) }) :
    Ends (updateFirst table query (.timestamp (WriteClock.micros.instant now))) memory post := by
  refine ends_replaceFirst hnone hfailed ?_
  rintro id before updated _ image hentry hupdated rfl himage
  have hbefore : KeptRecord last id before := htable _ hentry
  have hafter := (hbefore.applyUpdates hupdates hupdated).stamp hnow
  refine hsome id before _ image hentry hafter ?_
  rcases himage with rfl | rfl
  · exact hbefore.mono hnow
  · exact hafter

/-! ### One attempt -/

/-- The state after a stamp was taken. -/
def stamped (memory : Memory) : Memory := { memory with sources := (memory.sources.now .micros).2 }

theorem ends_now_kept (h : memory.Kept) {post : Outcome Value → Memory → Prop}
    (hpost : (stamped memory).Kept → memory.sources.last ≤ (stamped memory).sources.last →
      Instant.firstMicros ≤ (stamped memory).sources.last →
      post (.ok (.timestamp (WriteClock.micros.instant (stamped memory).sources.last))) (stamped memory)) :
    Ends now memory post := by
  obtain ⟨hsound, hlater, hfirst, hinstant⟩ := h.sources.now
  have hdone := hpost (h.withSources hsound hlater) hlater hfirst
  refine ends_now.mpr ?_
  rw [hinstant]
  exact hdone

/-- A record is added to its class, or its id is taken in a class that is there already. -/
theorem ends_insertKept {start : Memory} {className id : String} {table : Table} {record : Fields} {after : Action α}
    (h : memory.Kept) (hlater : start.sources.last ≤ memory.sources.last) (htable : KeptTable memory.sources.last table)
    (hrecord : KeptRecord memory.sources.last id record) (hunchanged : table ≠ [] → memory.tables = start.tables)
    (hafter : ∀ final : Memory, final.Kept → start.sources.last ≤ final.sources.last → Ends after final (Safe start)) :
    Ends (insertRecord className table id record >>= fun _ => after) memory (Safe start) := by
  refine ends_bind (ends_insertRecord (fun htaken => ?_) fun _ => ?_)
  · refine ⟨h, hlater, fun _ _ => hunchanged ?_⟩
    rintro rfl
    cases htaken
  · exact hafter _ (h.setTable (htable.insert hrecord)) hlater

theorem ends_openKept (h : memory.Kept) {className : String} {post : Outcome Table → Memory → Prop}
    (hpost : ∀ (table : Table) (opened : Memory), opened.Kept → opened.sources = memory.sources →
      KeptTable opened.sources.last table → (table ≠ [] → opened.tables = memory.tables) → post (.ok table) opened) :
    Ends (openTable className) memory post := by
  refine ends_openTable (fun table htable => ?_) fun hmissing => ?_
  · exact hpost table memory h rfl (h.keptTable htable) fun _ => rfl
  · exact hpost [] _ (h.setTable nofun) rfl nofun fun hne => absurd rfl hne

theorem ends_drawKept (h : memory.Kept) {post : Outcome String → Memory → Prop}
    (hpost : ∀ (id : String) (drawn : Memory), drawn.Kept → drawn.sources.last = memory.sources.last →
      drawn.tables = memory.tables → post (.ok id) drawn) : Ends drawId memory post :=
  ends_drawId.mpr (hpost _ _ (h.withSources h.sources.draw (Int.le_refl _)) rfl rfl)

theorem ends_seedId (h : memory.Kept) {seed : Option Value} {post : Outcome String → Memory → Prop}
    (hpost : ∀ (id : String) (drawn : Memory), drawn.Kept → drawn.sources.last = memory.sources.last →
      drawn.tables = memory.tables → post (.ok id) drawn) : Ends (seedId seed) memory post := by
  refine ends_seedDrawn fun id drawn _ hdrawn => ?_
  rcases hdrawn with rfl | rfl
  · exact hpost id _ h rfl rfl
  · exact hpost id _ (h.withSources h.sources.draw (Int.le_refl _)) rfl rfl

theorem safe_insertOnce (h : memory.Kept) {fields : Fields} (className : String)
    (hfields : ∀ name ∈ OrderedMap.keys fields, FieldName.isReserved name = false) :
    Ends (insertOnce className fields) memory (Safe memory) := by
  refine ends_bind (ends_now_kept h fun hstamped hlater hfirst => ?_)
  refine ends_bind (ends_drawKept hstamped fun id drawn hdrawn hlast htables => ?_)
  refine ends_bind (ends_openKept hdrawn fun table opened hopened hsources htable hsame => ?_)
  have hrecord := KeptRecord.stamped hfirst id hfields
  have hstill : opened.sources.last = (stamped memory).sources.last := by rw [hsources, hlast]
  refine ends_insertKept hopened (by omega) htable (hrecord.mono (by omega)) (fun hne => (hsame hne).trans htables)
    fun final hfinal hlast => ?_
  obtain ⟨object, hobject⟩ := hrecord.ofRecord className
  rw [ends_lift, hobject]
  exact ⟨hfinal, hlast, nofun⟩

theorem not_isReserved_of_mem_filter (seed : Fields) :
    ∀ name ∈ OrderedMap.keys (OrderedMap.filter (fun key _ => !FieldName.isReserved key) seed),
      FieldName.isReserved name = false := by
  intro name hname
  rw [OrderedMap.keys_filter (fun key => !FieldName.isReserved key)] at hname
  simpa using (List.mem_filter.mp hname).2

theorem safe_upsertOnce (h : memory.Kept) {query : FindOneQuery}
    (hupdates : ∀ name, FieldName.isReserved name = true → name ∉ OrderedMap.keys query.update)
    {seed : Fields} (hseed : query.upsertSeed = .ok seed) :
    Ends (upsertOnce query) memory (Safe memory) := by
  refine ends_bind (ends_now_kept h fun hstamped hlater hfirst => ?_)
  refine ends_bind (ends_openKept hstamped fun table opened hopened hsources htable hsame => ?_)
  have hstill : opened.sources.last = (stamped memory).sources.last := by rw [hsources]
  have hopenedLater : memory.sources.last ≤ opened.sources.last := by omega
  refine ends_bind (ends_updateFirst htable hupdates (Int.le_of_eq hstill) ?_ (fun failure hne => ?_) ?_)
  · refine ends_bind (ends_lift.mpr ?_)
    rw [hseed]
    refine ends_bind (ends_seedId hopened fun id drawn hdrawn hlast htables => ?_)
    have hrecord := KeptRecord.stamped hfirst id (not_isReserved_of_mem_filter seed)
    refine ends_insertKept hdrawn (by omega) (htable.mono (Int.le_of_eq hlast.symm)) (hrecord.mono (by omega))
      (fun hne => htables.trans (hsame hne)) fun final hfinal hlast => ?_
    cases query.returning with
    | before => exact ⟨hfinal, hlast, nofun⟩
    | after =>
      obtain ⟨object, hobject⟩ := hrecord.ofRecord_project query.className query.includes
      refine ends_bind (ends_lift.mpr ?_)
      rw [hobject]
      exact ⟨hfinal, hlast, nofun⟩
  · exact ⟨hopened, hopenedLater, fun _ _ => hsame hne⟩
  · intro id before after image hbefore hafter himage
    obtain ⟨object, hobject⟩ := himage.ofRecord_project query.className query.includes
    refine ends_bind (ends_lift.mpr ?_)
    rw [hobject]
    have hwritten : KeptTable opened.sources.last (OrderedMap.insert table id after) :=
      htable.insert (hafter.mono (Int.le_of_eq hstill.symm))
    exact ⟨hopened.setTable hwritten, hopenedLater, nofun⟩

/-- What an upsert answers when it has inserted a record. -/
def insertedAnswer (query : FindOneQuery) (record : Fields) : Outcome (Option Object) :=
  match query.returning with
  | .before => .ok none
  | .after => (Object.ofRecord query.className (project query.includes record)).map some

theorem raceless_insertedAnswer (query : FindOneQuery) (record : Fields) : Outcome.Raceless (insertedAnswer query record) := by
  rw [insertedAnswer]
  split
  · exact .ok _
  · exact (Object.raceless_ofRecord _ _).map some

theorem ends_insertedAnswer (query : FindOneQuery) (record : Fields) (final : Memory) :
    Ends (match query.returning with
      | .before => return none
      | .after => return some (← liftM (Object.ofRecord query.className (project query.includes record)))) final
      fun outcome after => outcome = insertedAnswer query record ∧ after = final := by
  rw [insertedAnswer]
  cases query.returning with
  | before => exact ⟨rfl, rfl⟩
  | after =>
    refine ends_bind (ends_lift.mpr ?_)
    cases Object.ofRecord query.className (project query.includes record) with
    | error failure => exact ⟨rfl, rfl⟩
    | ok object => exact ⟨rfl, rfl⟩

theorem ends_insertedImage {query : FindOneQuery} {record : Fields} {post : Outcome (Option Object) → Memory → Prop}
    (h : ∀ result, post result memory) :
    Ends (match query.returning with
      | .before => return none
      | .after => return some (← liftM (Object.ofRecord query.className (project query.includes record)))) memory post := by
  refine (ends_insertedAnswer query record memory).mono ?_
  rintro outcome after ⟨-, rfl⟩
  exact h outcome

/-! ### Attempts after races -/

/-- Whatever comes of an attempt, no further one is made. -/
structure Conclusive (outcome : Outcome α) (after : Memory) : Prop where
  raceless : outcome.Raceless

theorem ends_retryConclusive {races : List Race} {attempt : Action α} {post : Outcome α → Memory → Prop}
    (remaining number : Nat) (h : Ends attempt memory post) (hconclusive : Ends attempt memory Conclusive) :
    Ends (ExceptT.mk (retryFrom races (fun _ => attempt.run) remaining number)) memory post := by
  have hlast : ¬Outcome.Lost races (attempt.run.run memory).1 := by
    rintro ⟨failure, hfailed, hrace⟩
    rw [Failure.isOneOf, hconclusive.raceless failure hfailed] at hrace
    cases hrace
  rw [Ends, ExceptT.run_mk, run_retryFrom_of_not_lost hlast]
  exact h

theorem ends_retryFrom {races : List Race} {attempt : Action α} (may : Memory → Prop) {post : Outcome α → Memory → Prop}
    (hattempt : ∀ memory, may memory → Ends attempt memory post)
    (hagain : ∀ failure after, post (.error failure) after → may after) (remaining number : Nat) (h : may memory) :
    Ends (ExceptT.mk (retryFrom races (fun _ => attempt.run) remaining number)) memory post := by
  induction remaining generalizing memory number with
  | zero => exact hattempt memory h
  | succ remaining ih =>
    have hone : post (attempt.run.run memory).1 (attempt.run.run memory).2 := hattempt memory h
    rw [Ends, ExceptT.run_mk]
    by_cases hlost : Outcome.Lost races (attempt.run.run memory).1
    · rw [run_retryFrom_of_lost hlost]
      obtain ⟨failure, hfailed, -⟩ := hlost
      rw [hfailed] at hone
      exact ih (number + 1) (hagain failure _ hone)
    · rw [run_retryFrom_of_not_lost hlost]
      exact hone

/-- A lost race changed no table, so every further attempt starts from the same tables. -/
theorem safe_retryFrom {races : List Race} {attempt : Action α}
    (hattempt : ∀ memory : Memory, memory.Kept → Ends attempt memory (Safe memory)) {start : Memory} (remaining number : Nat)
    (h : memory.Kept) (hlater : start.sources.last ≤ memory.sources.last) (hsame : memory.tables = start.tables) :
    Ends (ExceptT.mk (retryFrom races (fun _ => attempt.run) remaining number)) memory (Safe start) := by
  let may (memory : Memory) : Prop := memory.Kept ∧ start.sources.last ≤ memory.sources.last ∧ memory.tables = start.tables
  refine ends_retryFrom may (fun memory hmay => ?_) (fun failure after hsafe => ?_) remaining number ⟨h, hlater, hsame⟩
  · exact (hattempt memory hmay.1).mono fun _ _ hsafe => hsafe.of_later hmay.2.1 hmay.2.2
  · exact ⟨hsafe.kept, hsafe.later, hsafe.unchanged failure rfl⟩

theorem safe_retryRaces {races : List Race} {attempt : Action α}
    (hattempt : ∀ memory : Memory, memory.Kept → Ends attempt memory (Safe memory)) (limit : Option Nat) (patience : Nat)
    (h : memory.Kept) :
    Ends (ExceptT.mk (retryRaces races limit patience fun _ => attempt.run)) memory (Safe memory) :=
  safe_retryFrom hattempt _ 0 h (Int.le_refl _) rfl

/-- Every attempt begins with the tables of the first, and with what else each lost one keeps. -/
theorem ends_retryKept {races : List Race} {attempt : Action α} (also : Memory → Prop) {post : Outcome α → Memory → Prop}
    (hsafe : ∀ current : Memory, current.Kept → Ends attempt current (Safe current))
    (hattempt : ∀ current : Memory, current.tables = memory.tables → memory.sources.last ≤ current.sources.last → also current →
      Ends attempt current post)
    (hagain : ∀ failure after, post (.error failure) after → also after) (limit : Option Nat) (patience : Nat)
    (h : memory.Kept) (halso : also memory) :
    Ends (ExceptT.mk (retryRaces races limit patience fun _ => attempt.run)) memory post := by
  let may (current : Memory) : Prop :=
    current.Kept ∧ current.tables = memory.tables ∧ memory.sources.last ≤ current.sources.last ∧ also current
  let both (outcome : Outcome α) (after : Memory) : Prop := Safe memory outcome after ∧ post outcome after
  have hattempts : Ends (ExceptT.mk (retryRaces races limit patience fun _ => attempt.run)) memory both := by
    refine ends_retryFrom may ?_ ?_ _ 0 ⟨h, rfl, Int.le_refl _, halso⟩
    · rintro current ⟨hkept, hsame, hlater, hcurrent⟩
      exact ⟨(hsafe current hkept).of_later hlater hsame, hattempt current hsame hlater hcurrent⟩
    · rintro failure after ⟨hsafe, hpost⟩
      exact ⟨hsafe.kept, hsafe.unchanged failure rfl, hsafe.later, hagain failure after hpost⟩
  exact hattempts.mono fun _ _ hboth => hboth.2

end Memory

end ObjectStore
