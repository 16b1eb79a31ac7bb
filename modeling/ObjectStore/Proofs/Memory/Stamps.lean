import ObjectStore.Proofs.Memory.Writes

/-!
# Stamps over a whole run

Whatever the wall clock reads, every write of a run stores a later stamp than all that were stored before it, also by calls that were rolled back, and one that is not before the reading that it was made of. This holds as long as there are stamps left that stand for instants of their own; beyond the last of these every stamp is the last instant.
-/

namespace ObjectStore

namespace Memory

/-- An operation that is performed, and the state in which it begins. -/
structure Call where
  operation : Operation
  before : Memory

namespace Call

variable (patience : Nat) (call : Call)

def outcome : Outcome call.operation.Answer := ((perform patience call.operation).run.run call.before).1

def after : Memory := ((perform patience call.operation).run.run call.before).2

/-- The instant of the last stamp that was taken when the call ended. -/
def stamp : Instant := WriteClock.micros.instant (call.after patience).sources.last

/-- The last reading of the wall clock when the call ended. -/
def reading : Int := call.before.sources.wall ((call.after patience).sources.reads - 1)

end Call

/-- The calls of a script, in the order in which they are made, also those within transactions. -/
def calls (patience : Nat) {α : Type} (inTransaction : Bool) : Script α → Memory → List Call
  | .done _, _ => []
  | .step operation next, memory =>
    let performed := (perform patience operation).run.run memory
    { operation, before := memory } :: calls patience inTransaction (next performed.1) performed.2
  | .transaction options body next, memory =>
    let bracketed := ((backend patience).bracket inTransaction options (body.run (backend patience) true)).run memory
    calls patience true body memory ++ calls patience inTransaction (next bracketed.1) bracketed.2

/-- Whether both stamps of every stored record are before an instant. -/
def Precedes (memory : Memory) (t : Instant) : Prop :=
  ∀ className id record, memory.record? className id = some record → ∃ created updated,
    OrderedMap.get? record FieldName.physicalCreatedAt = some (.timestamp created) ∧ created.compare t = .lt ∧
    OrderedMap.get? record FieldName.physicalUpdatedAt = some (.timestamp updated) ∧ updated.compare t = .lt

namespace Call

variable (patience : Nat) (call : Call)

/-- Whether a call stores a record and nothing else, under a stamp that is after all that were stored when the call began, and not before the reading that it was made of. -/
structure Stores (className id : String) (record : Fields) : Prop where
  wrote : Wrote call.before (call.after patience) className id record
  precedes : call.before.Precedes (call.stamp patience)
  reading : call.reading patience ≤ (call.stamp patience).micros

/-- What a call does if it is a write that succeeds: an insertion stores a new record, an update replaces a record unless it finds none, and an update-or-insert does one or the other. -/
def Stamps : (operation : Operation) → Outcome operation.Answer → Prop
  | .insert className _, .ok _ => ∃ id record, call.before.record? className id = none ∧ call.Stores patience className id record
  | .update query, .ok (some _) =>
    ∃ id record, call.before.record? query.className id ≠ none ∧ call.Stores patience query.className id record
  | .update _, .ok none => (call.after patience).tables = call.before.tables
  | .upsert query, .ok _ => ∃ id record, call.Stores patience query.className id record
  | _, _ => True

end Call

/-- Whether an operation is a write that stored a record, to judge by its outcome. -/
def hasStored : (operation : Operation) → Outcome operation.Answer → Bool
  | .insert _ _, .ok _ | .update _, .ok (some _) | .upsert _, .ok _ => true
  | _, _ => false

theorem Call.stores_of_hasStored {patience : Nat} {call : Call} {operation : Operation} {outcome : Outcome operation.Answer}
    (h : call.Stamps patience operation outcome) (hstored : hasStored operation outcome = true) :
    ∃ className id record, call.Stores patience className id record := by
  unfold hasStored at hstored
  split at hstored
  case h_1 =>
    obtain ⟨id, record, -, hstores⟩ := h
    exact ⟨_, id, record, hstores⟩
  case h_2 =>
    obtain ⟨id, record, -, hstores⟩ := h
    exact ⟨_, id, record, hstores⟩
  case h_3 =>
    obtain ⟨id, record, hstores⟩ := h
    exact ⟨_, id, record, hstores⟩
  case h_4 => cases hstored

section Kept

variable {patience : Nat} {call : Call} (h : call.before.Kept) (hdistinct : call.before.Distinct)

theorem precedes_of_kept {memory : Memory} (h : memory.Kept) {stamp : Int} (hlater : memory.sources.last < stamp)
    (hbelow : stamp ≤ WriteClock.lastMicros) : memory.Precedes (WriteClock.micros.instant stamp) := by
  intro className id record hrecord
  obtain ⟨created, updated, hfirst, horder, hlast, hcreated, hupdated⟩ := (h.record hrecord).stamps
  refine ⟨_, _, hcreated, WriteClock.instant_lt hfirst (by omega) hbelow, hupdated, ?_⟩
  exact WriteClock.instant_lt (by omega) (by omega) hbelow

include h in
theorem stores_of_wrote {className id : String} {record : Fields} (hwrote : Wrote call.before (call.after patience) className id record)
    (hbelow : (call.after patience).sources.last ≤ WriteClock.lastMicros) : call.Stores patience className id record := by
  obtain ⟨t, ht⟩ := h.sources.wall ((call.after patience).sources.reads - 1)
  have hfirst := t.micros_bounds.1
  have hreading := hwrote.reading
  have hgreatest : WriteClock.lastMicros < WriteClock.greatest := by decide
  refine ⟨hwrote, precedes_of_kept h (hwrote.later (by omega)) hbelow, ?_⟩
  rw [Call.stamp, WriteClock.micros_instant (by omega) hbelow]
  exact hreading

include h hdistinct

theorem stamps_of_kept (hbelow : (call.after patience).sources.last ≤ WriteClock.lastMicros) :
    call.Stamps patience call.operation (call.outcome patience) := by
  obtain ⟨operation, before⟩ := call
  cases operation with
  | insert className fields =>
    have hattempted : Attempted _ before _ _ := wrote_insert patience h hdistinct className fields
    cases houtcome : Call.outcome patience ⟨.insert className fields, before⟩ with
    | error failure => trivial
    | ok object =>
      obtain ⟨id, record, hnone, hwrote⟩ := hattempted.wrote object houtcome
      exact ⟨id, record, hnone, stores_of_wrote h hwrote hbelow⟩
  | update query =>
    have hupdated : Updated before query.className (Call.outcome patience ⟨.update query, before⟩) _ :=
      updated_perform patience hdistinct query
    cases houtcome : Call.outcome patience ⟨.update query, before⟩ with
    | error failure => trivial
    | ok object? =>
      rw [houtcome] at hupdated
      cases hupdated with
      | replaced hthere hwrote => exact ⟨_, _, hthere, stores_of_wrote h hwrote hbelow⟩
      | unmatched hsame => exact hsame
  | upsert query =>
    have hattempted : Attempted _ before _ _ := wrote_upsert patience h hdistinct query
    cases houtcome : Call.outcome patience ⟨.upsert query, before⟩ with
    | error failure => trivial
    | ok object? =>
      obtain ⟨id, record, hwrote⟩ := hattempted.wrote object? houtcome
      exact ⟨id, record, stores_of_wrote h hwrote hbelow⟩
  | _ => trivial

end Kept

/-! ### All calls of a run -/

/-- What holds where a call begins, and the stamps between which all of its own are. -/
structure Call.Within (patience : Nat) (first last : Int) (call : Call) : Prop where
  kept : call.before.Kept
  distinct : call.before.Distinct
  first : first ≤ call.before.sources.last
  last : (call.after patience).sources.last ≤ last

section Run

variable {memory : Memory} (patience : Nat)

theorem Call.Within.mono {call : Call} {first last wideFirst wideLast : Int} (h : call.Within patience first last)
    (hfirst : wideFirst ≤ first) (hlast : last ≤ wideLast) : call.Within patience wideFirst wideLast :=
  ⟨h.kept, h.distinct, Int.le_trans hfirst h.first, Int.le_trans h.last hlast⟩

theorem Call.Within.safe {call : Call} {first last : Int} (h : call.Within patience first last) :
    Safe call.before (call.outcome patience) (call.after patience) :=
  safe_perform patience h.kept call.operation

theorem run_bracket (inTransaction : Bool) (options : TransactionOptions) {β : Type} (body : StateM Memory (Outcome Unit × β)) :
    (((backend patience).bracket inTransaction options body).run memory).2.sources = (body.run memory).2.sources ∧
      ((((backend patience).bracket inTransaction options body).run memory).2.tables = (body.run memory).2.tables ∨
        (((backend patience).bracket inTransaction options body).run memory).2.tables = memory.tables) := by
  cases inTransaction with
  | true => exact ⟨rfl, .inl rfl⟩
  | false =>
    have hbracket : (backend patience).bracket false options body = transact body := rfl
    rw [hbracket, run_transact]
    rcases body.run memory with ⟨⟨outcome, learned⟩, after⟩
    cases outcome with
    | ok => exact ⟨rfl, .inl rfl⟩
    | error failure => exact ⟨rfl, .inr rfl⟩

theorem distinct_bracket (hdistinct : memory.Distinct) (inTransaction : Bool) (options : TransactionOptions) {β : Type}
    {body : StateM Memory (Outcome Unit × β)} (hbody : (body.run memory).2.Distinct) :
    (((backend patience).bracket inTransaction options body).run memory).2.Distinct := by
  rcases (run_bracket patience inTransaction options body).2 with hsame | hsame
  · exact hbody.congr hsame
  · exact hdistinct.congr hsame

theorem distinct_run {α : Type} (script : Script α) (inTransaction : Bool) (h : memory.Kept) (hdistinct : memory.Distinct) :
    ((script.run (backend patience) inTransaction).run memory).2.Distinct := by
  induction script generalizing memory inTransaction with
  | done result => exact hdistinct
  | step operation next ih =>
    have hkept := (safe_perform patience h operation).kept
    exact ih _ inTransaction hkept (preserves_perform patience h hdistinct operation).distinct
  | transaction options body next ihBody ihNext =>
    have hkept := (follows_bracket patience h inTransaction options (follows_run patience body true h)).kept
    exact ihNext _ inTransaction hkept (distinct_bracket patience hdistinct inTransaction options (ihBody true h hdistinct))

theorem Reachable.distinct {patience : Nat} (h : Reachable patience memory) : memory.Distinct := by
  induction h with
  | empty sources h => exact ⟨List.nodup_nil, nofun⟩
  | run script inTransaction hreachable ih => exact distinct_run patience script inTransaction hreachable.kept ih

theorem within_calls {α : Type} (script : Script α) (inTransaction : Bool) (h : memory.Kept) (hdistinct : memory.Distinct) :
    ∀ call ∈ calls patience inTransaction script memory,
      call.Within patience memory.sources.last ((script.run (backend patience) inTransaction).run memory).2.sources.last := by
  induction script generalizing memory inTransaction with
  | done result => exact nofun
  | step operation next ih =>
    have hsafe := safe_perform patience h operation
    have hpreserves := preserves_perform patience h hdistinct operation
    intro call hcall
    rcases List.mem_cons.mp hcall with rfl | hlater
    · exact ⟨h, hdistinct, Int.le_refl _, (follows_run patience (next _) inTransaction hsafe.kept).later⟩
    · exact (ih _ inTransaction hsafe.kept hpreserves.distinct call hlater).mono patience hsafe.later (Int.le_refl _)
  | transaction options body next ihBody ihNext =>
    have hbracket := follows_bracket patience h inTransaction options (follows_run patience body true h)
    have hafter := distinct_bracket patience hdistinct inTransaction options (distinct_run patience body true h hdistinct)
    intro call hcall
    rcases List.mem_append.mp hcall with hwithin | hlater
    · refine (ihBody true h hdistinct call hwithin).mono patience (Int.le_refl _) ?_
      rw [← (run_bracket patience inTransaction options _).1]
      exact (follows_run patience (next _) inTransaction hbracket.kept).later
    · exact (ihNext _ inTransaction hbracket.kept hafter call hlater).mono patience hbracket.later (Int.le_refl _)

/-- A call takes no stamp before one that an earlier call took, whether or not the earlier one was rolled back. -/
theorem calls_ordered {α : Type} (script : Script α) (inTransaction : Bool) (h : memory.Kept) (hdistinct : memory.Distinct) :
    (calls patience inTransaction script memory).Pairwise fun earlier later =>
      (earlier.after patience).sources.last ≤ later.before.sources.last := by
  induction script generalizing memory inTransaction with
  | done result => exact .nil
  | step operation next ih =>
    have hkept := (safe_perform patience h operation).kept
    have hnext := (preserves_perform patience h hdistinct operation).distinct
    refine List.pairwise_cons.mpr ⟨fun later hlater => ?_, ih _ inTransaction hkept hnext⟩
    exact (within_calls patience (next _) inTransaction hkept hnext later hlater).first
  | transaction options body next ihBody ihNext =>
    have hkept := (follows_bracket patience h inTransaction options (follows_run patience body true h)).kept
    have hafter := distinct_bracket patience hdistinct inTransaction options (distinct_run patience body true h hdistinct)
    refine List.pairwise_append.mpr ⟨ihBody true h hdistinct, ihNext _ inTransaction hkept hafter, ?_⟩
    intro earlier hearlier later hlater
    have hend := (within_calls patience body true h hdistinct earlier hearlier).last
    rw [← (run_bracket patience inTransaction options _).1] at hend
    exact Int.le_trans hend (within_calls patience (next _) inTransaction hkept hafter later hlater).first

/-- A record that no call of a run removes keeps the stamp of its creation: a call changes no such stamp, and putting tables back is no change to a record that was stored before. -/
theorem creation_run {α : Type} (script : Script α) (inTransaction : Bool) (h : memory.Kept) (hdistinct : memory.Distinct)
    {className id : String} (hstays : ∀ call ∈ calls patience inTransaction script memory, (call.after patience).record? className id ≠ none)
    {old : Fields} (hold : memory.record? className id = some old) :
    ∃ new, ((script.run (backend patience) inTransaction).run memory).2.record? className id = some new ∧
      OrderedMap.get? new FieldName.physicalCreatedAt = OrderedMap.get? old FieldName.physicalCreatedAt := by
  induction script generalizing memory inTransaction old with
  | done result => exact ⟨old, hold, rfl⟩
  | step operation next ih =>
    have hkept := (safe_perform patience h operation).kept
    have hpreserves := preserves_perform patience h hdistinct operation
    obtain ⟨between, hbetween⟩ := Option.ne_none_iff_exists'.mp (hstays _ List.mem_cons_self)
    obtain ⟨new, hnew, hcreated⟩ := ih _ inTransaction hkept hpreserves.distinct
      (fun call hcall => hstays call (List.mem_cons_of_mem _ hcall)) hbetween
    exact ⟨new, hnew, hcreated.trans (hpreserves.creation className id old between hold hbetween)⟩
  | transaction options body next ihBody ihNext =>
    have hkept := (follows_bracket patience h inTransaction options (follows_run patience body true h)).kept
    have hafter := distinct_bracket patience hdistinct inTransaction options (distinct_run patience body true h hdistinct)
    have hnext {between : Fields} := @ihNext _ _ inTransaction hkept hafter
      (fun call hcall => hstays call (List.mem_append_right _ hcall)) between
    rcases (run_bracket patience inTransaction options (body.run (backend patience) true)).2 with hsame | hsame
    · obtain ⟨between, hbetween, hcreated⟩ :=
        ihBody true h hdistinct (fun call hcall => hstays call (List.mem_append_left _ hcall)) hold
      obtain ⟨new, hnew, hcreated'⟩ := hnext ((record?_congr hsame className id).trans hbetween)
      exact ⟨new, hnew, hcreated'.trans hcreated⟩
    · exact hnext ((record?_congr hsame className id).trans hold)

end Run

/-- Over a run, every write that succeeds stores a stamp that is later than all that earlier calls of the run left stored, and than all that were stored when the run began; no call changes the stamp of a creation, so a record keeps it for as long as it is stored. -/
theorem stamps_increase {patience : Nat} {memory : Memory} (h : Reachable patience memory) {α : Type} (script : Script α)
    (inTransaction : Bool)
    (hbelow : ((script.run (backend patience) inTransaction).run memory).2.sources.last ≤ WriteClock.lastMicros) :
    (∀ call ∈ calls patience inTransaction script memory,
      call.Stamps patience call.operation (call.outcome patience) ∧
        ∀ className, KeepsCreation (call.before.tableOf className) ((call.after patience).tableOf className)) ∧
    ((calls patience inTransaction script memory).Pairwise fun earlier later =>
      hasStored later.operation (later.outcome patience) = true → (earlier.after patience).Precedes (later.stamp patience)) ∧
    ∀ className id old, memory.record? className id = some old →
      (∀ call ∈ calls patience inTransaction script memory, (call.after patience).record? className id ≠ none) →
      ∃ new, ((script.run (backend patience) inTransaction).run memory).2.record? className id = some new ∧
        OrderedMap.get? new FieldName.physicalCreatedAt = OrderedMap.get? old FieldName.physicalCreatedAt := by
  have hwithin := within_calls patience script inTransaction h.kept h.distinct
  have hstamps : ∀ call ∈ calls patience inTransaction script memory,
      call.Stamps patience call.operation (call.outcome patience) := fun call hcall =>
    stamps_of_kept (hwithin call hcall).kept (hwithin call hcall).distinct (Int.le_trans (hwithin call hcall).last hbelow)
  refine ⟨fun call hcall => ⟨hstamps call hcall, ?_⟩, ?_, fun className id old hold hstays => ?_⟩
  · exact (preserves_perform patience (hwithin call hcall).kept (hwithin call hcall).distinct call.operation).creation
  · refine (calls_ordered patience script inTransaction h.kept h.distinct).imp_of_mem ?_
    intro earlier later hearlier hlater hordered hstored
    obtain ⟨className, id, record, hstores⟩ := Call.stores_of_hasStored (hstamps later hlater) hstored
    have hlast := Int.le_trans (hwithin later hlater).last hbelow
    have hgreatest : WriteClock.lastMicros < WriteClock.greatest := by decide
    have htaken := hstores.wrote.later (by omega)
    exact precedes_of_kept (hwithin earlier hearlier).safe.kept (by omega) hlast
  · exact creation_run patience script inTransaction h.kept h.distinct hstays hold

/-- Inserts a record, another one in a transaction that is rolled back, and then updates the first. -/
def renamedDog : Script (Outcome (Option Object)) :=
  .step (.insert "Dog" [("name", .string "Rex")]) fun _ =>
    .transaction {} (.step (.insert "Dog" [("name", .string "Ace")]) fun _ => .done (.error .classNotSet, ())) fun _ =>
      .perform (.upsert { className := "Dog", filters := [Key.id.eq (.string "A")], update := [("name", .set (.string "Max"))] })

/-- The stamp that was rolled back is not given out again, although the wall clock stands still. -/
theorem renamedDog_later :
    ∃ kept lost last : Call, calls 2 false renamedDog { sources := twoIds } = [kept, lost, last] ∧
      (lost.after 2).Precedes (last.stamp 2) ∧ ∃ id record, last.Stores 2 "Dog" id record := by
  have hreachable : Reachable 2 { sources := twoIds } := .empty twoIds ⟨by decide, fun _ => ⟨default, rfl⟩⟩
  have hbelow : ((renamedDog.run (backend 2) false).run { sources := twoIds }).2.sources.last ≤ WriteClock.lastMicros := by decide
  obtain ⟨hstamps, hordered, -⟩ := stamps_increase hreachable renamedDog false hbelow
  refine ⟨_, _, _, rfl, ?_, ?_⟩
  · exact List.rel_of_pairwise_cons (List.pairwise_cons.mp hordered).2 List.mem_cons_self rfl
  · exact (hstamps _ (List.mem_cons_of_mem _ (List.mem_cons_of_mem _ List.mem_cons_self))).1

end Memory

end ObjectStore
