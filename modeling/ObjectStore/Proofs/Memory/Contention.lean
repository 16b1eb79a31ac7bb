import Mathlib.Data.List.Sort
import Mathlib.Logic.Function.Basic
import ObjectStore.Proofs.Memory.Stamps

/-!
# Writers that contend for a record

A call that replaces a record takes its stamp first and then waits for the tables: whatever it does to them, it does with a stamp that may be old by then. Any number of such calls are under way at one store, and their steps come in any order. Stamps increase in the order in which they are taken, and a record is left with the stamp of the write that came to it last. So its stamp increases from write to write exactly if the writes come in the order in which their stamps were taken, and a call that is overtaken moves it back.
-/

namespace ObjectStore

namespace Memory

/-! ### The two steps of a call -/

/-- The record that is updated: the first match, unless the updates fail on it. -/
def firstUpdated? (table : Table) (query : FindOneQuery) : Option String :=
  match (selectEntries table query.asFind).head? with
  | none => none
  | some (id, before) =>
    match applyUpdates query.update before with
    | .error _ => none
    | .ok _ => some id

theorem firstUpdated?_nil (query : FindOneQuery) : firstUpdated? [] query = none := by
  have hnone : selectEntries [] query.asFind = [] :=
    List.eq_nil_iff_forall_not_mem.mpr fun entry hentry => nomatch mem_of_mem_selectEntries hentry
  rw [firstUpdated?, hnone]
  rfl

/-- A call that replaces the first record that its query finds. -/
inductive Rewrite where
  | update (query : FindOneQuery)
  | upsert (query : FindOneQuery)

namespace Rewrite

def query : Rewrite → FindOneQuery
  | update query | upsert query => query

def perform (patience : Nat) : Rewrite → Action (Option Object)
  | update query => Memory.perform patience (.update query)
  | upsert query => Memory.perform patience (.upsert query)

/-- What is checked before the first stamp is taken. It tells how many attempts may follow the first one. -/
def check (patience : Nat) : Rewrite → Outcome Nat
  | update query => do
    query.validate
    FieldName.rejectReserved (OrderedMap.keys query.update)
    return 0
  | upsert query => do
    query.validate
    FieldName.rejectReserved (OrderedMap.keys query.update ++ OrderedMap.keys query.setOnInsert)
    let seed ← query.toPhysical.upsertSeed
    let limit := if OrderedMap.contains seed FieldName.physicalId then some 2 else none
    return limit.getD patience - 1

/-- What an update-or-insert does if its query finds nothing. -/
def insertUnmatched (query : FindOneQuery) (table : Table) (stamp : Value) : Action (Option Object) := do
  let seed ← liftM query.toPhysical.upsertSeed
  let id ← seedId (OrderedMap.get? seed FieldName.physicalId)
  let record := Fields.stamped (.string id) stamp (OrderedMap.filter (fun key _ => !FieldName.isReserved key) seed)
  insertRecord query.className table id record
  match query.returning with
  | .before => return none
  | .after => return some (← liftM (Object.ofRecord query.className (project query.toPhysical.includes record)))

/-- What an attempt does to the tables, all at once, with the stamp that it took before. -/
def settle (stamp : Value) : Rewrite → Action (Option Object)
  | update query => do
    match ← table? query.className with
    | none => return none
    | some table =>
      match ← updateFirst table query.toPhysical stamp with
      | some image => return some (← liftM (Object.ofRecord query.className image))
      | none => return none
  | upsert query => do
    let table ← openTable query.className
    match ← updateFirst table query.toPhysical stamp with
    | some image => return some (← liftM (Object.ofRecord query.className image))
    | none => insertUnmatched query table stamp

def attempt (call : Rewrite) : Action (Option Object) := do
  call.settle (← now)

theorem perform_eq (patience : Nat) (call : Rewrite) :
    call.perform patience = (do
      let remaining ← liftM (call.check patience)
      ExceptT.mk (retryFrom [.duplicateId] (fun _ => call.attempt.run) remaining 0)) := by
  cases call with
  | update query =>
    simp only [perform, Memory.perform, check]
    cases query.validate with
    | error failure => rfl
    | ok =>
      cases FieldName.rejectReserved (OrderedMap.keys query.update) with
      | error failure => rfl
      | ok => rfl
  | upsert query =>
    simp only [perform, Memory.perform, check]
    cases query.validate with
    | error failure => rfl
    | ok =>
      cases FieldName.rejectReserved (OrderedMap.keys query.update ++ OrderedMap.keys query.setOnInsert) with
      | error failure => rfl
      | ok =>
        cases query.toPhysical.upsertSeed with
        | error failure => rfl
        | ok seed => rfl

/-- The record that an attempt replaces: the first that the query finds, unless the updates fail on it. -/
def target? (call : Rewrite) (memory : Memory) : Option String :=
  firstUpdated? (memory.tableOf call.query.className) call.query.toPhysical

/-- Whether an attempt replaces this record. -/
def rewrites (call : Rewrite) (memory : Memory) (className id : String) : Bool :=
  call.query.className == className && call.target? memory == some id

section

variable {call : Rewrite} {memory : Memory}

theorem rewrites_of_none (h : call.target? memory = none) (className id : String) : call.rewrites memory className id = false := by
  rw [rewrites, h, Bool.and_eq_false_imp]
  exact fun _ => rfl

theorem rewrites_of_some {found : String} (h : call.target? memory = some found) (className id : String) :
    call.rewrites memory className id = (call.query.className == className && found == id) := by
  rw [rewrites, h]
  rfl

end

end Rewrite

/-- The later stamp of a record, if it is stored. -/
def updatedAt? (memory : Memory) (className id : String) : Option Value :=
  (memory.record? className id).bind fun record => OrderedMap.get? record FieldName.physicalUpdatedAt

/-- What a record has for a stamp of this number. -/
def stampField (stamp : Int) : Option Value := some (.timestamp (WriteClock.micros.instant stamp))

theorem updatedAt?_of_kept {memory : Memory} (h : memory.Kept) {className id : String} (hstored : memory.record? className id ≠ none) :
    ∃ stamp, Instant.firstMicros ≤ stamp ∧ stamp ≤ memory.sources.last ∧
      memory.updatedAt? className id = stampField stamp := by
  obtain ⟨record, hrecord⟩ := Option.ne_none_iff_exists'.mp hstored
  obtain ⟨created, updated, hfirst, horder, hlast, -, hupdated⟩ := (h.record hrecord).stamps
  refine ⟨updated, Int.le_trans hfirst horder, hlast, ?_⟩
  rw [updatedAt?, hrecord]
  exact hupdated

/-- What an attempt leaves of a record that is stored, and of the stamps: only the record that it replaces gets another stamp. -/
structure Settled (rewritten : Bool) (stamp : Value) (className id : String) (memory after : Memory) : Prop where
  last : after.sources.last = memory.sources.last
  wall : after.sources.wall = memory.sources.wall
  stored : after.record? className id ≠ none
  updatedAt : after.updatedAt? className id = if rewritten = true then some stamp else memory.updatedAt? className id

section Settle

variable {memory opened : Memory} {className id : String} {stamp : Value}

theorem record?_setRecord (memory : Memory) (other found : String) (record : Fields) (className id : String) :
    ({ memory with tables := OrderedMap.insert memory.tables other (OrderedMap.insert (memory.tableOf other) found record) } :
      Memory).record? className id = if other = className ∧ found = id then some record else memory.record? className id := by
  rw [record?, tableOf_setTable rfl]
  by_cases hclass : other = className
  · subst hclass
    simp only [if_true, OrderedMap.get?_insert, true_and, record?]
  · simp only [hclass, if_false, false_and, record?]

/-- A state that differs from an earlier one in drawn identifiers and empty tables only. -/
structure Alike (memory opened : Memory) : Prop where
  last : opened.sources.last = memory.sources.last
  wall : opened.sources.wall = memory.sources.wall
  tables : ∀ className, opened.tableOf className = memory.tableOf className

theorem Alike.record? (h : Alike memory opened) (className id : String) : opened.record? className id = memory.record? className id := by
  rw [Memory.record?, Memory.record?, h.tables]

theorem ends_openAlike {other : String} {post : Outcome Table → Memory → Prop}
    (hpost : ∀ opened, Alike memory opened → post (.ok (opened.tableOf other)) opened) : Ends (openTable other) memory post := by
  refine ends_openSame fun opened hopened => ?_
  rw [← hopened.records]
  exact hpost opened ⟨by rw [hopened.sources], by rw [hopened.sources], hopened.records⟩

theorem ends_seedAlike (hopened : Alike memory opened) {seed : Option Value} {post : Outcome String → Memory → Prop}
    (hpost : ∀ id drawn, Alike memory drawn → drawn.tables = opened.tables → post (.ok id) drawn) : Ends (seedId seed) opened post := by
  refine ends_seedDrawn fun id drawn _ hdrawn => ?_
  rcases hdrawn with rfl | rfl
  · exact hpost id _ hopened rfl
  · exact hpost id _ ⟨hopened.last, hopened.wall, hopened.tables⟩ rfl

variable (hstored : memory.record? className id ≠ none)

include hstored

theorem settled_alike (hopened : Alike memory opened) : Settled false stamp className id memory opened := by
  refine ⟨hopened.last, hopened.wall, ?_, ?_⟩
  · rw [hopened.record?]
    exact hstored
  · rw [updatedAt?, hopened.record?]
    rfl

theorem settled_setRecord (hopened : Alike memory opened) (other found : String) {record : Fields}
    (hstamp : OrderedMap.get? record FieldName.physicalUpdatedAt = some stamp) :
    Settled (other == className && found == id) stamp className id memory
      { opened with tables := OrderedMap.insert opened.tables other (OrderedMap.insert (opened.tableOf other) found record) } := by
  have hrecord := record?_setRecord opened other found record className id
  rw [hopened.record?] at hrecord
  refine ⟨hopened.last, hopened.wall, ?_, ?_⟩
  · rw [hrecord]
    split
    · exact nofun
    · exact hstored
  · rw [updatedAt?, hrecord]
    simp only [Bool.and_eq_true, beq_iff_eq]
    split
    · exact hstamp
    · rfl

theorem ends_insertAlike (hopened : Alike memory opened) {other found : String} {record : Fields}
    (hstamp : OrderedMap.get? record FieldName.physicalUpdatedAt = some stamp) {post : Outcome Unit → Memory → Prop}
    (hpost : ∀ outcome after, Settled false stamp className id memory after → post outcome after) :
    Ends (insertRecord other (opened.tableOf other) found record) opened post := by
  refine ends_insertRecord (fun _ => hpost _ _ (settled_alike hstored hopened)) fun hfree => hpost _ _ ?_
  have hset := settled_setRecord hstored hopened other found hstamp
  have hother : (other == className && found == id) = false := by
    rw [Bool.eq_false_iff, ne_eq, Bool.and_eq_true, beq_iff_eq, beq_iff_eq]
    rintro ⟨rfl, rfl⟩
    rw [OrderedMap.contains, Option.isSome_eq_false_iff, Option.isNone_iff_eq_none] at hfree
    exact hstored ((hopened.record? other found).symm.trans hfree)
  rwa [hother] at hset

/-- An update gives its stamp to the record that it replaces, and to no other. -/
theorem ends_updateAlike (hopened : Alike memory opened) (query : FindOneQuery) {post : Outcome (Option Fields) → Memory → Prop}
    (hnone : firstUpdated? (opened.tableOf query.className) query = none → ∀ outcome, post outcome opened)
    (hsome : ∀ found after image, firstUpdated? (opened.tableOf query.className) query = some found →
      Settled (query.className == className && found == id) stamp className id memory after → post (.ok (some image)) after) :
    Ends (updateFirst (opened.tableOf query.className) query stamp) opened post := by
  rw [updateFirst]
  cases hfirst : (selectEntries (opened.tableOf query.className) query.asFind).head? with
  | none =>
    refine hnone ?_ _
    rw [firstUpdated?, hfirst]
  | some entry =>
    refine ends_bind (ends_lift.mpr ?_)
    cases hupdated : applyUpdates query.update entry.2 with
    | error failure =>
      refine hnone ?_ _
      simp only [firstUpdated?, hfirst, hupdated]
    | ok updated =>
      refine ends_bind (ends_setTable.mpr (hsome entry.1 _ _ ?_ (settled_setRecord hstored hopened _ _ ?_)))
      · simp only [firstUpdated?, hfirst, hupdated]
      · exact OrderedMap.get?_insert_self _ _ _

theorem ends_insertUnmatched (hopened : Alike memory opened) (query : FindOneQuery) {post : Memory → Prop}
    (hpost : ∀ after, Settled false stamp className id memory after → post after) :
    Ends (Rewrite.insertUnmatched query (opened.tableOf query.className) stamp) opened fun _ after => post after := by
  have hkept := hpost opened (settled_alike hstored hopened)
  refine ends_bind (ends_lift.mpr ?_)
  cases query.toPhysical.upsertSeed with
  | error failure => exact hkept
  | ok seed =>
    simp only [andNext]
    refine ends_bind (ends_seedAlike hopened fun new drawn hdrawn htables => ?_)
    have hstamp : OrderedMap.get? (Fields.stamped (.string new) stamp (OrderedMap.filter (fun key _ => !FieldName.isReserved key) seed))
        FieldName.physicalUpdatedAt = some stamp := Fields.get?_stamped (not_isReserved_of_mem_filter seed) _ _ (by decide)
    rw [← tableOf_congr htables]
    simp only [andNext]
    refine ends_bind (ends_insertAlike hstored hdrawn hstamp fun outcome after hsettled => ?_)
    have hdone := hpost after hsettled
    cases outcome with
    | error failure => exact hdone
    | ok =>
      simp only [andNext]
      exact @ends_insertedImage _ query.toPhysical _ _ fun _ => hdone

/-- An attempt leaves every record that is stored, and gives its stamp to the one that it replaces. -/
theorem settled_settle (call : Rewrite) :
    Ends (call.settle stamp) memory fun _ after => Settled (call.rewrites memory className id) stamp className id memory after := by
  have hmissed {opened : Memory} (h : Settled false stamp className id memory opened) (hnone : call.target? memory = none) :
      Settled (call.rewrites memory className id) stamp className id memory opened := by
    rwa [Rewrite.rewrites_of_none hnone]
  have hfound {found : String} {opened : Memory}
      (h : Settled (call.query.className == className && found == id) stamp className id memory opened)
      (hsome : call.target? memory = some found) : Settled (call.rewrites memory className id) stamp className id memory opened := by
    rwa [Rewrite.rewrites_of_some hsome]
  have hsame : Settled false stamp className id memory memory := settled_alike hstored ⟨rfl, rfl, fun _ => rfl⟩
  cases call with
  | update query =>
    refine ends_bind (ends_table?.mpr ?_)
    cases htable : OrderedMap.get? memory.tables query.className with
    | none =>
      have hnone : (Rewrite.update query).target? memory = none := by
        rw [Rewrite.target?, Rewrite.query, tableOf_of_missing htable, firstUpdated?_nil]
      exact hmissed hsame hnone
    | some table =>
      obtain rfl := tableOf_of_get? htable
      simp only [andNext]
      refine ends_bind (ends_updateAlike hstored ⟨rfl, rfl, fun _ => rfl⟩ query.toPhysical (fun hnone outcome => ?_)
        fun found after image hsome hset => ?_)
      · rcases outcome with failure | _ | image
        · exact hmissed hsame hnone
        · exact hmissed hsame hnone
        · exact ends_returned fun _ => hmissed hsame hnone
      · exact ends_returned fun _ => hfound hset hsome
  | upsert query =>
    refine ends_bind (ends_openAlike fun opened hopened => ?_)
    have htarget : firstUpdated? (opened.tableOf query.toPhysical.className) query.toPhysical = (Rewrite.upsert query).target? memory := by
      rw [hopened.tables]
      rfl
    simp only [andNext]
    refine ends_bind (ends_updateAlike hstored hopened query.toPhysical (fun hnone outcome => ?_) fun found after image hsome hset => ?_)
    · rw [htarget] at hnone
      have hkept := hmissed (settled_alike hstored hopened) hnone
      rcases outcome with failure | _ | image
      · exact hkept
      · exact ends_insertUnmatched hstored hopened query fun after hsettled => hmissed hsettled hnone
      · exact ends_returned fun _ => hkept
    · exact ends_returned fun _ => hfound hset (htarget.symm.trans hsome)

end Settle

/-! ### Calls that are under way -/

/-- Where a call is: before an attempt, with the number of the stamp that it took for one, or at its end. Further attempts may remain. -/
inductive Stage where
  | ready (remaining : Nat)
  | holding (stamp : Int) (remaining : Nat)
  | ended (outcome : Outcome (Option Object))

namespace Stage

def afterCheck : Outcome Nat → Stage
  | .ok remaining => ready remaining
  | .error failure => ended (.error failure)

def afterAttempt (outcome : Outcome (Option Object)) : Nat → Stage
  | 0 => ended outcome
  | remaining + 1 =>
    match outcome with
    | .ok object? => ended (.ok object?)
    | .error failure => if failure.isOneOf [.duplicateId] then ready remaining else ended (.error failure)

theorem afterAttempt_ne_holding (outcome : Outcome (Option Object)) (remaining : Nat) (stamp : Int) (more : Nat) :
    afterAttempt outcome remaining ≠ holding stamp more := by
  cases remaining with
  | zero => exact nofun
  | succ remaining =>
    cases outcome with
    | ok object? => exact nofun
    | error failure =>
      rw [afterAttempt]
      split <;> exact nofun

end Stage

/-- Calls that are under way at one store. -/
structure Contention (ι : Type) where
  memory : Memory
  stages : ι → Stage

namespace Contention

variable {ι : Type} [DecidableEq ι]

def start (patience : Nat) (memory : Memory) (calls : ι → Rewrite) : Contention ι where
  memory
  stages writer := .afterCheck ((calls writer).check patience)

/-- One step of a call: it takes a stamp, or it has the tables for itself and does the rest of an attempt. -/
def turn (calls : ι → Rewrite) (contention : Contention ι) (writer : ι) : Contention ι :=
  match contention.stages writer with
  | .ready remaining =>
    { memory := stamped contention.memory
      stages := Function.update contention.stages writer (.holding (stamped contention.memory).sources.last remaining) }
  | .holding stamp remaining =>
    let settled := ((calls writer).settle (.timestamp (WriteClock.micros.instant stamp))).run.run contention.memory
    { memory := settled.2, stages := Function.update contention.stages writer (.afterAttempt settled.1 remaining) }
  | .ended _ => contention

def play (calls : ι → Rewrite) (contention : Contention ι) (turns : List ι) : Contention ι :=
  turns.foldl (turn calls) contention

section Alone

variable {calls : ι → Rewrite} {contention : Contention ι} {writer : ι}

theorem turn_ready {remaining : Nat} (h : contention.stages writer = .ready remaining) :
    contention.turn calls writer =
      { memory := stamped contention.memory
        stages := Function.update contention.stages writer (.holding (stamped contention.memory).sources.last remaining) } := by
  rw [turn, h]

theorem turn_holding {stamp : Int} {remaining : Nat} (h : contention.stages writer = .holding stamp remaining) :
    contention.turn calls writer =
      { memory := (((calls writer).settle (.timestamp (WriteClock.micros.instant stamp))).run.run contention.memory).2
        stages := Function.update contention.stages writer (.afterAttempt
          (((calls writer).settle (.timestamp (WriteClock.micros.instant stamp))).run.run contention.memory).1 remaining) } := by
  rw [turn, h]

theorem turn_ended {outcome : Outcome (Option Object)} (h : contention.stages writer = .ended outcome) :
    contention.turn calls writer = contention := by
  rw [turn, h]

theorem turn_turn {remaining : Nat} (h : contention.stages writer = .ready remaining) :
    (contention.turn calls writer).turn calls writer =
      { memory := ((calls writer).attempt.run.run contention.memory).2
        stages := Function.update contention.stages writer
          (.afterAttempt ((calls writer).attempt.run.run contention.memory).1 remaining) } := by
  rw [turn_ready h, turn_holding (Function.update_self _ _ _)]
  simp only [Function.update_idem]
  rfl

theorem play_attempts (remaining number : Nat) (h : contention.stages writer = .ready remaining) :
    ∃ count, contention.play calls (List.replicate count writer) =
      { memory := ((retryFrom [.duplicateId] (fun _ => (calls writer).attempt.run) remaining number).run contention.memory).2
        stages := Function.update contention.stages writer
          (.ended ((retryFrom [.duplicateId] (fun _ => (calls writer).attempt.run) remaining number).run contention.memory).1) } := by
  induction remaining generalizing contention number with
  | zero => exact ⟨2, turn_turn h⟩
  | succ remaining ih =>
    have hattempt : (contention.turn calls writer).turn calls writer = _ := turn_turn h
    rw [run_retryFrom]
    rcases hrun : (calls writer).attempt.run.run contention.memory with ⟨outcome, after⟩
    rw [hrun] at hattempt
    cases outcome with
    | ok object? => exact ⟨2, hattempt⟩
    | error failure =>
      dsimp only
      by_cases hrace : failure.isOneOf [.duplicateId] = true
      · rw [if_pos hrace]
        simp only [Stage.afterAttempt, if_pos hrace] at hattempt
        have hready : ((contention.turn calls writer).turn calls writer).stages writer = .ready remaining := by
          rw [hattempt]
          exact Function.update_self _ _ _
        obtain ⟨count, hcount⟩ := ih (number + 1) hready
        refine ⟨count + 2, hcount.trans ?_⟩
        rw [hattempt, Function.update_idem]
      · rw [if_neg hrace]
        simp only [Stage.afterAttempt, if_neg hrace] at hattempt
        exact ⟨2, hattempt⟩

/-- A call that nobody interrupts does what the operation does. -/
theorem play_alone (patience : Nat) (memory : Memory) (calls : ι → Rewrite) (writer : ι) :
    ∃ count, (start patience memory calls).play calls (List.replicate count writer) =
      { memory := (((calls writer).perform patience).run.run memory).2
        stages := Function.update (start patience memory calls).stages writer
          (.ended (((calls writer).perform patience).run.run memory).1) } := by
  have hstage : (start patience memory calls).stages writer = .afterCheck ((calls writer).check patience) := rfl
  rw [Rewrite.perform_eq]
  cases hcheck : (calls writer).check patience with
  | error failure =>
    rw [hcheck] at hstage
    refine ⟨0, ?_⟩
    change start patience memory calls = { memory, stages := Function.update _ writer (.afterCheck (.error failure)) }
    rw [← hstage, Function.update_eq_self]
    rfl
  | ok remaining =>
    rw [hcheck] at hstage
    exact play_attempts remaining 0 hstage

end Alone

/-! ### What happens to one record -/

/-- What a step does to a record: it takes a stamp, or gives one to the record, which then has it for its later stamp. -/
inductive Event where
  | took (stamp : Int)
  | wrote (stamp : Int) (updatedAt : Option Value)

namespace Event

def taken? : Event → Option Int
  | took stamp => some stamp
  | wrote _ _ => none

def written? : Event → Option Int
  | took _ => none
  | wrote stamp _ => some stamp

def stored? : Event → Option (Option Value)
  | took _ => none
  | wrote _ updatedAt => some updatedAt

end Event

/-- Whether a call holds a stamp and waits for the tables. -/
def Holds (contention : Contention ι) (writer : ι) (stamp : Int) : Prop := ∃ remaining, contention.stages writer = .holding stamp remaining

omit [DecidableEq ι] in
theorem not_holds_start (patience : Nat) (memory : Memory) (calls : ι → Rewrite) (writer : ι) (stamp : Int) :
    ¬(start patience memory calls).Holds writer stamp := by
  rintro ⟨remaining, hholding⟩
  have hstage : Stage.afterCheck ((calls writer).check patience) = .holding stamp remaining := hholding
  cases hcheck : (calls writer).check patience with
  | ok => cases hcheck ▸ hstage
  | error => cases hcheck ▸ hstage

section Events

variable (calls : ι → Rewrite) (className id : String)

def event? (contention : Contention ι) (writer : ι) : Option Event :=
  match contention.stages writer with
  | .ready _ => some (.took (stamped contention.memory).sources.last)
  | .holding stamp _ =>
    if (calls writer).rewrites contention.memory className id then
      some (.wrote stamp ((contention.turn calls writer).memory.updatedAt? className id))
    else none
  | .ended _ => none

/-- The steps that take a stamp or give one to the record, in their order. -/
def events (contention : Contention ι) : List ι → List Event
  | [] => []
  | writer :: rest => (event? calls className id contention writer).toList ++ events (contention.turn calls writer) rest

/-- The stamps that are taken. -/
def taken (contention : Contention ι) (turns : List ι) : List Int := (events calls className id contention turns).filterMap Event.taken?

/-- The stamps of the writes to the record, in the order of the writes. -/
def written (contention : Contention ι) (turns : List ι) : List Int := (events calls className id contention turns).filterMap Event.written?

/-- What the record has for its later stamp after each write to it. -/
def stored (contention : Contention ι) (turns : List ι) : List (Option Value) :=
  (events calls className id contention turns).filterMap Event.stored?

end Events

section Turn

variable {calls : ι → Rewrite} {className id : String} {contention : Contention ι} {writer : ι}

theorem stages_turn_of_ne {other : ι} (h : other ≠ writer) : (contention.turn calls writer).stages other = contention.stages other := by
  rw [turn]
  split
  · exact Function.update_of_ne h _ _
  · exact Function.update_of_ne h _ _
  · rfl

/-- A stamp that is held after a step was held before it, and not by the call that made the step, or it has just been taken. -/
theorem holds_of_turn {other : ι} {stamp : Int} (h : (contention.turn calls writer).Holds other stamp) :
    other ≠ writer ∧ contention.Holds other stamp ∨
      other = writer ∧ (∃ remaining, contention.stages writer = .ready remaining) ∧ stamp = (stamped contention.memory).sources.last := by
  obtain ⟨more, hmore⟩ := h
  by_cases hsame : other = writer
  · subst hsame
    cases hstage : contention.stages other with
    | ready remaining =>
      have hnow : (contention.turn calls other).stages other = .holding (stamped contention.memory).sources.last remaining := by
        rw [turn_ready hstage]
        exact Function.update_self _ _ _
      cases hmore.symm.trans hnow
      exact .inr ⟨rfl, ⟨_, rfl⟩, rfl⟩
    | holding old remaining =>
      rw [turn_holding hstage] at hmore
      exact absurd ((Function.update_self _ _ _).symm.trans hmore) (Stage.afterAttempt_ne_holding _ _ _ _)
    | ended outcome =>
      rw [turn_ended hstage, hstage] at hmore
      cases hmore
  · rw [stages_turn_of_ne hsame] at hmore
    exact .inl ⟨hsame, more, hmore⟩

/-- What holds of every contention over a record: the record stays stored. -/
structure Sane (className id : String) (contention : Contention ι) : Prop where
  sound : contention.memory.sources.Sound
  stored : contention.memory.record? className id ≠ none

/-- Every stamp that is held was taken, by one call. -/
structure Fresh (contention : Contention ι) : Prop where
  held : ∀ writer stamp, contention.Holds writer stamp → stamp ≤ contention.memory.sources.last
  distinct : ∀ writer other stamp, contention.Holds writer stamp → contention.Holds other stamp → writer = other

omit [DecidableEq ι] in
theorem fresh_start (patience : Nat) (memory : Memory) (calls : ι → Rewrite) : (start patience memory calls).Fresh :=
  ⟨fun writer stamp hholds => absurd hholds (not_holds_start patience memory calls writer stamp),
    fun writer _ stamp hholds => absurd hholds (not_holds_start patience memory calls writer stamp)⟩

namespace Sane

variable (h : contention.Sane className id)

include h

theorem settled (calls : ι → Rewrite) {stamp : Int} {remaining : Nat} (hstage : contention.stages writer = .holding stamp remaining) :
    Settled ((calls writer).rewrites contention.memory className id) (.timestamp (WriteClock.micros.instant stamp)) className id
      contention.memory (contention.turn calls writer).memory := by
  rw [turn_holding hstage]
  exact settled_settle h.stored (calls writer)

theorem last_le_turn (calls : ι → Rewrite) (writer : ι) :
    contention.memory.sources.last ≤ (contention.turn calls writer).memory.sources.last := by
  cases hstage : contention.stages writer with
  | ready remaining =>
    rw [turn_ready hstage]
    exact h.sound.now.2.1
  | holding stamp remaining => rw [(h.settled calls hstage).last]
  | ended outcome => rw [turn_ended hstage]

theorem turn (calls : ι → Rewrite) (writer : ι) : (contention.turn calls writer).Sane className id := by
  cases hstage : contention.stages writer with
  | ready remaining =>
    rw [turn_ready hstage]
    exact ⟨h.sound.now.1, h.stored⟩
  | holding stamp remaining =>
    have hsettled := h.settled calls hstage
    refine ⟨⟨?_, ?_⟩, hsettled.stored⟩
    · rw [hsettled.last]
      exact h.sound.last_le
    · rw [hsettled.wall]
      exact h.sound.wall
  | ended outcome =>
    rw [turn_ended hstage]
    exact h

theorem last_le_play (calls : ι → Rewrite) (turns : List ι) :
    contention.memory.sources.last ≤ (contention.play calls turns).memory.sources.last := by
  induction turns generalizing contention with
  | nil => exact Int.le_refl _
  | cons writer rest ih => exact Int.le_trans (h.last_le_turn calls writer) (ih (h.turn calls writer))

end Sane

section Fresh

variable (h : contention.Sane className id) (hfresh : contention.Fresh)
  (hbelow : (contention.turn calls writer).memory.sources.last < WriteClock.greatest)

include hfresh hbelow

theorem Fresh.held_lt_taken {remaining : Nat} (hready : contention.stages writer = .ready remaining) {other : ι} {stamp : Int}
    (hheld : contention.Holds other stamp) : stamp < (stamped contention.memory).sources.last := by
  rw [turn_ready hready] at hbelow
  exact Int.lt_of_le_of_lt (hfresh.held other stamp hheld) (Sources.last_lt_now hbelow)

include h

theorem Fresh.turn : (contention.turn calls writer).Fresh := by
  refine ⟨fun other stamp hholds => ?_, fun other another stamp hholds hholds' => ?_⟩
  · rcases holds_of_turn hholds with ⟨-, hheld⟩ | ⟨-, ⟨_, hready⟩, rfl⟩
    · exact Int.le_trans (hfresh.held other stamp hheld) (h.last_le_turn calls writer)
    · rw [turn_ready hready]
  · rcases holds_of_turn hholds with ⟨-, hheld⟩ | ⟨rfl, ⟨_, hready⟩, rfl⟩
    · rcases holds_of_turn hholds' with ⟨-, hheld'⟩ | ⟨-, ⟨_, hready⟩, rfl⟩
      · exact hfresh.distinct other another stamp hheld hheld'
      · exact absurd (hfresh.held_lt_taken hbelow hready hheld) (Int.lt_irrefl _)
    · rcases holds_of_turn hholds' with ⟨-, hheld'⟩ | ⟨rfl, -, -⟩
      · exact absurd (hfresh.held_lt_taken hbelow hready hheld') (Int.lt_irrefl _)
      · rfl

end Fresh

end Turn

section Play

variable {calls : ι → Rewrite} {className id : String} {contention : Contention ι}

/-- What a step does: it takes a stamp, or it gives the one that it holds to the record, or it leaves the record's later stamp as it is. -/
inductive Does (calls : ι → Rewrite) (className id : String) (contention : Contention ι) (writer : ι) : Option Event → Prop where
  | takes {remaining : Nat} (hready : contention.stages writer = .ready remaining)
    (hsame : (contention.turn calls writer).memory.updatedAt? className id = contention.memory.updatedAt? className id) :
    Does calls className id contention writer (some (.took (contention.turn calls writer).memory.sources.last))
  | writes {stamp : Int} {remaining : Nat} (hholding : contention.stages writer = .holding stamp remaining)
    (hlast : (contention.turn calls writer).memory.sources.last = contention.memory.sources.last)
    (hstamp : (contention.turn calls writer).memory.updatedAt? className id = stampField stamp) :
    Does calls className id contention writer
      (some (.wrote stamp ((contention.turn calls writer).memory.updatedAt? className id)))
  | passes (hready : ∀ remaining, contention.stages writer ≠ .ready remaining)
    (hsame : (contention.turn calls writer).memory.updatedAt? className id = contention.memory.updatedAt? className id) :
    Does calls className id contention writer none

theorem Sane.does (h : contention.Sane className id) (calls : ι → Rewrite) (writer : ι) :
    Does calls className id contention writer (event? calls className id contention writer) := by
  rw [event?]
  cases hstage : contention.stages writer with
  | ready remaining =>
    have hmemory : (contention.turn calls writer).memory = stamped contention.memory := by
      rw [turn_ready hstage]
    have htakes : Does calls className id contention writer _ := .takes hstage (by rw [hmemory]; rfl)
    rwa [hmemory] at htakes
  | holding stamp remaining =>
    have hsettled := h.settled calls hstage
    have hupdated := hsettled.updatedAt
    dsimp only
    split
    · next hrewrites =>
      rw [if_pos hrewrites] at hupdated
      exact .writes hstage hsettled.last hupdated
    · next hother =>
      rw [if_neg hother] at hupdated
      refine .passes (fun _ hready => ?_) hupdated
      cases hstage.symm.trans hready
  | ended outcome =>
    refine .passes (fun _ hready => ?_) ?_
    · cases hstage.symm.trans hready
    · rw [turn_ended hstage]

theorem taken_increase (h : contention.Sane className id) (turns : List ι)
    (hbelow : (contention.play calls turns).memory.sources.last < WriteClock.greatest) :
    (taken calls className id contention turns).Pairwise (· < ·) ∧
      ∀ stamp ∈ taken calls className id contention turns, contention.memory.sources.last < stamp ∧
        stamp ≤ (contention.play calls turns).memory.sources.last := by
  induction turns generalizing contention with
  | nil => exact ⟨.nil, nofun⟩
  | cons writer rest ih =>
    obtain ⟨hordered, hbounds⟩ := ih (h.turn calls writer) hbelow
    have hlater := h.last_le_turn calls writer
    have hlast := (h.turn calls writer).last_le_play calls rest
    have hrest : ∀ stamp ∈ taken calls className id (contention.turn calls writer) rest, contention.memory.sources.last < stamp ∧
        stamp ≤ ((contention.turn calls writer).play calls rest).memory.sources.last := fun stamp hstamp =>
      ⟨Int.lt_of_le_of_lt hlater (hbounds stamp hstamp).1, (hbounds stamp hstamp).2⟩
    have hdoes := h.does calls writer
    rw [taken, events, List.filterMap_append]
    generalize event? calls className id contention writer = event at hdoes ⊢
    cases hdoes with
    | passes _ _ => exact ⟨hordered, hrest⟩
    | writes _ _ _ => exact ⟨hordered, hrest⟩
    | takes hready _ =>
      refine ⟨List.pairwise_cons.mpr ⟨fun stamp hstamp => (hbounds stamp hstamp).1, hordered⟩, fun stamp hstamp => ?_⟩
      rcases List.mem_cons.mp hstamp with rfl | hlater
      · refine ⟨?_, hlast⟩
        have hnow := Int.lt_of_le_of_lt hlast hbelow
        rw [turn_ready hready] at hnow ⊢
        exact Sources.last_lt_now hnow
      · exact hrest stamp hlater

theorem written_once (h : contention.Sane className id) (hfresh : contention.Fresh) (turns : List ι)
    (hbelow : (contention.play calls turns).memory.sources.last < WriteClock.greatest) :
    (written calls className id contention turns).Nodup ∧
      ∀ stamp ∈ written calls className id contention turns,
        stamp ∈ taken calls className id contention turns ∨ ∃ writer, contention.Holds writer stamp := by
  induction turns generalizing contention with
  | nil => exact ⟨.nil, nofun⟩
  | cons writer rest ih =>
    have hnow := Int.lt_of_le_of_lt ((h.turn calls writer).last_le_play calls rest) hbelow
    obtain ⟨hnodup, horigin⟩ := ih (h.turn calls writer) (hfresh.turn h hnow) hbelow
    have hbounds : ∀ stamp ∈ taken calls className id (contention.turn calls writer) rest,
        (contention.turn calls writer).memory.sources.last < stamp := fun stamp hstamp =>
      ((taken_increase (h.turn calls writer) rest hbelow).2 stamp hstamp).1
    have hdoes := h.does calls writer
    rw [written, taken, events, List.filterMap_append, List.filterMap_append]
    generalize event? calls className id contention writer = event at hdoes ⊢
    cases hdoes with
    | passes hready _ =>
      refine ⟨hnodup, fun stamp hstamp => (horigin stamp hstamp).imp_right ?_⟩
      rintro ⟨other, hholds⟩
      rcases holds_of_turn hholds with ⟨-, hheld⟩ | ⟨-, ⟨_, hstage⟩, -⟩
      · exact ⟨other, hheld⟩
      · exact absurd hstage (hready _)
    | takes hready _ =>
      refine ⟨hnodup, fun stamp hstamp => ?_⟩
      rcases horigin stamp hstamp with htaken | ⟨other, hholds⟩
      · exact .inl (List.mem_cons_of_mem _ htaken)
      · rcases holds_of_turn hholds with ⟨-, hheld⟩ | ⟨-, -, rfl⟩
        · exact .inr ⟨other, hheld⟩
        · rw [turn_ready hready]
          exact .inl List.mem_cons_self
    | @writes stamp remaining hholding hlast _ =>
      have hholder : contention.Holds writer stamp := ⟨remaining, hholding⟩
      have hbefore {other : ι} {held : Int} (hholds : (contention.turn calls writer).Holds other held) :
          other ≠ writer ∧ contention.Holds other held := by
        rcases holds_of_turn hholds with hheld | ⟨-, ⟨_, hready⟩, -⟩
        · exact hheld
        · cases hholding.symm.trans hready
      refine ⟨List.nodup_cons.mpr ⟨fun hagain => ?_, hnodup⟩, fun other hother => ?_⟩
      · -- it was taken before the later ones, and no other call holds it
        rcases horigin stamp hagain with htaken | ⟨other, hholds⟩
        · have hold := hfresh.held writer stamp hholder
          have hnew := hbounds stamp htaken
          omega
        · obtain ⟨hne, hheld⟩ := hbefore hholds
          exact hne (hfresh.distinct other writer stamp hheld hholder)
      · rcases List.mem_cons.mp hother with rfl | hlater
        · exact .inr ⟨writer, hholder⟩
        · exact (horigin other hlater).imp_right fun ⟨holder, hholds⟩ => ⟨holder, (hbefore hholds).2⟩

/-- After a write the record has the stamp of that write, and it keeps it until the next one. -/
theorem stored_eq (calls : ι → Rewrite) (h : contention.Sane className id) (turns : List ι) :
    stored calls className id contention turns =
        (written calls className id contention turns).map stampField ∧
      (contention.play calls turns).memory.updatedAt? className id =
        (stored calls className id contention turns).getLastD (contention.memory.updatedAt? className id) := by
  induction turns generalizing contention with
  | nil => exact ⟨rfl, rfl⟩
  | cons writer rest ih =>
    obtain ⟨hstored, hlast⟩ := ih (h.turn calls writer)
    have hplay : contention.play calls (writer :: rest) = (contention.turn calls writer).play calls rest := rfl
    have hdoes := h.does calls writer
    rw [hplay, hlast, stored, written, events, List.filterMap_append, List.filterMap_append]
    generalize event? calls className id contention writer = event at hdoes ⊢
    cases hdoes with
    | passes _ hsame =>
      rw [hsame]
      exact ⟨hstored, rfl⟩
    | takes _ hsame =>
      rw [hsame]
      exact ⟨hstored, rfl⟩
    | writes _ _ hstamp =>
      rw [hstamp]
      exact ⟨congrArg (List.cons _) hstored, List.getLastD_cons.symm⟩

end Play

/-! ### Whether the later stamp increases -/

/-- Whether a stored stamp is before another one. -/
def Advances (earlier later : Option Value) : Prop :=
  ∃ s t, earlier = some (.timestamp s) ∧ later = some (.timestamp t) ∧ s.compare t = .lt

instance : Trans Advances Advances Advances where
  trans := by
    rintro _ _ _ ⟨s, t, rfl, rfl, hst⟩ ⟨_, u, hsame, rfl, htu⟩
    cases hsame
    refine ⟨s, u, rfl, rfl, ?_⟩
    rw [Instant.compare_eq_lt_iff] at *
    omega

theorem advances_iff {a b : Int} (ha : Instant.firstMicros ≤ a) (hb : Instant.firstMicros ≤ b) (hbelow : b ≤ WriteClock.lastMicros) :
    Advances (stampField a) (stampField b) ↔ a < b := by
  constructor
  · rintro ⟨s, t, hs, ht, hlt⟩
    cases hs
    cases ht
    by_contra hle
    have hmono := WriteClock.instant_mono hb (Int.not_lt.mp hle)
    rw [Instant.compare_eq_lt_iff] at hlt
    rw [Instant.notAfter_iff] at hmono
    omega
  · intro hlt
    exact ⟨_, _, rfl, rfl, WriteClock.instant_lt ha hlt hbelow⟩

theorem isChain_advances_iff {stamps : List Int}
    (hrange : ∀ stamp ∈ stamps, Instant.firstMicros ≤ stamp ∧ stamp ≤ WriteClock.lastMicros) :
    (stamps.map stampField).IsChain Advances ↔ stamps.Pairwise (· < ·) := by
  rw [List.isChain_iff_pairwise, List.pairwise_map]
  refine List.Pairwise.iff_of_mem fun ha hb => ?_
  exact advances_iff (hrange _ ha).1 (hrange _ hb).1 (hrange _ hb).2

/-- However the steps of calls are ordered, each write to a record leaves its own stamp there until the next one comes. So the record's later stamp increases with every write if and only if the writes come in the order in which their stamps were taken. -/
theorem advances_iff_in_order {patience : Nat} {memory : Memory} (h : Reachable patience memory) (calls : ι → Rewrite)
    {className id : String} (hstored : memory.record? className id ≠ none) (turns : List ι)
    (hbelow : ((start patience memory calls).play calls turns).memory.sources.last ≤ WriteClock.lastMicros) :
    let contention := start patience memory calls
    stored calls className id contention turns =
        (written calls className id contention turns).map stampField ∧
      (contention.play calls turns).memory.updatedAt? className id =
        (stored calls className id contention turns).getLastD (memory.updatedAt? className id) ∧
      (taken calls className id contention turns).Pairwise (· < ·) ∧
      (written calls className id contention turns).Subperm (taken calls className id contention turns) ∧
      ((memory.updatedAt? className id :: stored calls className id contention turns).IsChain Advances ↔
        (written calls className id contention turns).Sublist (taken calls className id contention turns)) := by
  intro contention
  have hsane : contention.Sane className id := ⟨h.kept.sources, hstored⟩
  have hgreatest : WriteClock.lastMicros < WriteClock.greatest := by decide
  obtain ⟨hincrease, hbounds⟩ := taken_increase hsane turns (Int.lt_of_le_of_lt hbelow hgreatest)
  obtain ⟨hnodup, horigin⟩ := written_once hsane (fresh_start patience memory calls) turns (Int.lt_of_le_of_lt hbelow hgreatest)
  obtain ⟨hsame, hlast⟩ := stored_eq calls hsane turns
  have htaken : ∀ stamp ∈ written calls className id contention turns, stamp ∈ taken calls className id contention turns := by
    intro stamp hstamp
    rcases horigin stamp hstamp with htaken | ⟨writer, hholds⟩
    · exact htaken
    · exact absurd hholds (not_holds_start patience memory calls writer stamp)
  have hsubperm := List.subperm_of_subset hnodup htaken
  obtain ⟨first, hfirst, hold, hinitial⟩ := updatedAt?_of_kept h.kept hstored
  refine ⟨hsame, hlast, hincrease, hsubperm, ?_⟩
  have hrange : ∀ stamp ∈ first :: written calls className id contention turns,
      Instant.firstMicros ≤ stamp ∧ stamp ≤ WriteClock.lastMicros := by
    intro stamp hstamp
    rcases List.mem_cons.mp hstamp with rfl | hwritten
    · have hafter := hsane.last_le_play calls turns
      exact ⟨hfirst, Int.le_trans hold (Int.le_trans hafter hbelow)⟩
    · obtain ⟨hlower, hupper⟩ := hbounds stamp (htaken stamp hwritten)
      exact ⟨Int.le_trans hfirst (Int.le_trans hold (Int.le_of_lt hlower)), Int.le_trans hupper hbelow⟩
  rw [hinitial, hsame, ← List.map_cons, isChain_advances_iff hrange]
  constructor
  · intro hordered
    exact List.sublist_of_subperm_of_pairwise hsubperm (hordered.of_cons.imp Int.le_of_lt) (hincrease.imp Int.le_of_lt)
  · intro hsublist
    refine List.pairwise_cons.mpr ⟨fun stamp hwritten => ?_, hincrease.sublist hsublist⟩
    exact Int.lt_of_le_of_lt hold (hbounds stamp (htaken stamp hwritten)).1

/-- Two visits to one dog. -/
def visits (_ : Bool) : Rewrite :=
  .update { className := "Dog", filters := [Key.id.eq (.string "A")], update := [("visits", .increment (.integer 1))] }

theorem visits_in_order :
    (oneDog.updatedAt? "Dog" "A" :: stored visits "Dog" "A" (start 2 oneDog visits) [false, false, true, true]).IsChain Advances := by
  have hstored : oneDog.record? "Dog" "A" ≠ none := by
    have hsome : (oneDog.record? "Dog" "A").isSome = true := rfl
    exact Option.isSome_iff_ne_none.mp hsome
  have hbelow : ((start 2 oneDog visits).play visits [false, false, true, true]).memory.sources.last ≤ WriteClock.lastMicros := by decide
  have horder := (advances_iff_in_order reachable_oneDog visits hstored [false, false, true, true] hbelow).2.2.2.2
  refine horder.mpr ?_
  exact List.Sublist.refl [1, 2]

/-- The second visit comes while the first one waits for the tables. Both succeed, and the first one, which is written last, moves the stamp back. -/
theorem overtaken_visit_moves_back :
    let contention := start 2 oneDog visits
    let turns := [false, true, true, false]
    (contention.play visits turns).memory.sources.last ≤ WriteClock.lastMicros ∧
    (∀ writer, ∃ object, (contention.play visits turns).stages writer = .ended (.ok (some object))) ∧
    stored visits "Dog" "A" contention turns = [stampField 2, stampField 1] ∧
    (contention.play visits turns).memory.updatedAt? "Dog" "A" = stampField 1 ∧
    ¬(oneDog.updatedAt? "Dog" "A" :: stored visits "Dog" "A" contention turns).IsChain Advances := by
  intro contention turns
  have hstored : stored visits "Dog" "A" contention turns = [stampField 2, stampField 1] := rfl
  refine ⟨by decide, fun writer => ?_, hstored, rfl, fun hchain => ?_⟩
  · cases writer with
    | false => exact ⟨_, rfl⟩
    | true => exact ⟨_, rfl⟩
  · rw [hstored] at hchain
    have hback : Advances (stampField 2) (stampField 1) := List.isChain_cons_cons.mp (List.isChain_cons_cons.mp hchain).2 |>.1
    exact absurd ((advances_iff (by decide) (by decide) (by decide)).mp hback) (by decide)

end Contention

end Memory

end ObjectStore
