import ObjectStore.Proofs.Memory.Reachable
import ObjectStore.Proofs.Script

/-!
# Transactions on a copy of the tables

A transaction need not touch the tables that others see: its body may work on a copy, which takes their place when the body has ended well and is dropped otherwise. Stamps and identifiers come from the same sources all the time. A script that runs on the copy is told at every step what it would be told on the store itself, because an operation sees no more than tables and sources. So both ways to run a transaction are the same, and a committed transaction does what its body does without one.
-/

namespace ObjectStore

/-- Whether a script opens no transactions. -/
def Script.Flat {α : Type} : Script α → Prop
  | done _ => True
  | step _ next => ∀ outcome, (next outcome).Flat
  | transaction _ _ _ => False

/-- An operation and what came of it. -/
abbrev Exchange := (operation : Operation) × Outcome operation.Answer

namespace Memory

/-! ### Scripts on related states -/

section Related

variable {σ τ : Type}

/-- What a script asks for and is told, in order, where a transaction runs its body once. -/
def exchanges (backend : Backend (StateM σ)) (inTransaction : Bool) {α : Type} : Script α → σ → List Exchange
  | .done _, _ => []
  | .step operation next, state =>
    let performed := (backend.perform inTransaction operation).run state
    ⟨operation, performed.1⟩ :: exchanges backend inTransaction (next performed.1) performed.2
  | .transaction options body next, state =>
    let bracketed := (backend.bracket inTransaction options (body.run backend true)).run state
    exchanges backend true body state ++ exchanges backend inTransaction (next bracketed.1) bracketed.2

/-- Whether an operation tells the same in related states, and leaves related states. -/
def Agree (first : Backend (StateM σ)) (firstInside : Bool) (second : Backend (StateM τ)) (secondInside : Bool)
    (related : σ → τ → Prop) : Prop :=
  ∀ operation state other, related state other →
    ((first.perform firstInside operation).run state).1 = ((second.perform secondInside operation).run other).1 ∧
      related ((first.perform firstInside operation).run state).2 ((second.perform secondInside operation).run other).2

section Run

variable (backend : Backend (StateM σ)) (inTransaction : Bool) {α β : Type} (state : σ)

theorem run_step (operation : Operation) (next : Outcome operation.Answer → Script α) :
    ((Script.step operation next).run backend inTransaction).run state =
      ((next ((backend.perform inTransaction operation).run state).1).run backend inTransaction).run
        ((backend.perform inTransaction operation).run state).2 := rfl

theorem run_joined (options : TransactionOptions) (body : Script (Outcome Unit × β))
    (next : Outcome Unit × Option β → Script α) :
    ((Script.transaction options body next).run backend true).run state =
      ((next (((body.run backend true).run state).1.1, some ((body.run backend true).run state).1.2)).run backend true).run
        ((body.run backend true).run state).2 := rfl

theorem exchanges_joined (options : TransactionOptions) (body : Script (Outcome Unit × β))
    (next : Outcome Unit × Option β → Script α) :
    exchanges backend true (Script.transaction options body next) state =
      exchanges backend true body state ++
        exchanges backend true (next (((body.run backend true).run state).1.1, some ((body.run backend true).run state).1.2))
          ((body.run backend true).run state).2 := rfl

end Run

variable {first : Backend (StateM σ)} {second : Backend (StateM τ)} {related : σ → τ → Prop}

/-- A script cannot tell related states apart. Transactions within a transaction join it, and so make no difference. -/
theorem run_of_agree {firstInside secondInside : Bool} (hagree : Agree first firstInside second secondInside related)
    {α : Type} (script : Script α) (hflat : script.Flat ∨ firstInside = true ∧ secondInside = true) {state : σ} {other : τ}
    (h : related state other) :
    exchanges first firstInside script state = exchanges second secondInside script other ∧
      ((script.run first firstInside).run state).1 = ((script.run second secondInside).run other).1 ∧
      related ((script.run first firstInside).run state).2 ((script.run second secondInside).run other).2 := by
  induction script generalizing state other with
  | done result => exact ⟨rfl, rfl, h⟩
  | step operation next ih =>
    obtain ⟨hsame, hafter⟩ := hagree operation state other h
    obtain ⟨hrest, hend⟩ := ih ((first.perform firstInside operation).run state).1 (hflat.imp_left fun hnext => hnext _) hafter
    rw [run_step, run_step, exchanges, exchanges, ← hsame]
    exact ⟨congrArg _ hrest, hend⟩
  | transaction options body next ihBody ihNext =>
    obtain ⟨rfl, rfl⟩ : firstInside = true ∧ secondInside = true := hflat.resolve_left id
    obtain ⟨hbody, hsame, hafter⟩ := ihBody (.inr ⟨rfl, rfl⟩) h
    obtain ⟨hrest, hend⟩ := ihNext (((body.run first true).run state).1.1, some ((body.run first true).run state).1.2)
      (.inr ⟨rfl, rfl⟩) hafter
    rw [run_joined, run_joined, exchanges_joined, exchanges_joined, hbody, ← hsame]
    exact ⟨congrArg _ hrest, hend⟩

end Related

theorem exchanges_map {σ : Type} (backend : Backend (StateM σ)) (inTransaction : Bool) {α β : Type} (f : α → β)
    (script : Script α) (state : σ) :
    exchanges backend inTransaction (f <$> script) state = exchanges backend inTransaction script state := by
  induction script generalizing inTransaction state with
  | done result => rfl
  | step operation next ih => exact congrArg _ (ih _ inTransaction f _)
  | transaction options body next _ ih => exact congrArg _ (ih _ inTransaction f _)

/-! ### The copy -/

/-- The tables that everyone sees, the copy that a transaction works on, and the sources that serve both. -/
structure Handles where
  shared : OrderedMap Table
  own : OrderedMap Table
  sources : Sources

namespace Handles

/-- The beginning of a transaction. -/
def copied (memory : Memory) : Handles := { shared := memory.tables, own := memory.tables, sources := memory.sources }

/-- The store that the body of the transaction sees. -/
def inside (handles : Handles) : Memory := { tables := handles.own, sources := handles.sources }

/-- What the body has made of its store. -/
def worked (handles : Handles) (memory : Memory) : Handles :=
  { handles with own := memory.tables, sources := memory.sources }

/-- The copy takes the place of the shared tables. -/
def committed (handles : Handles) : Memory := { tables := handles.own, sources := handles.sources }

/-- The copy is dropped. -/
def dropped (handles : Handles) : Memory := { tables := handles.shared, sources := handles.sources }

end Handles

/-- Performs operations on the copy. A transaction within the transaction joins it. -/
def onCopy (patience : Nat) : Backend (StateM Handles) where
  perform _ operation := do
    let handles ← get
    let (outcome, memory) := (perform patience operation).run.run handles.inside
    set (handles.worked memory)
    return outcome
  transact _ body := do
    let (outcome, learned) ← body
    return (outcome, some learned)

/-- Runs a body on a copy, which takes the place of the tables if the body ends well. -/
def transactOnCopy {β : Type} (body : StateM Handles (Outcome Unit × β)) : StateM Memory (Outcome Unit × Option β) := do
  let memory ← get
  let ((outcome, learned), handles) := body.run (.copied memory)
  match outcome with
  | .ok () =>
    set handles.committed
    return (.ok (), some learned)
  | .error failure =>
    set handles.dropped
    return (.error failure, some learned)

section Copy

variable (patience : Nat) (memory : Memory)

/-- The copy is the store as it would be, and the shared tables are those of before. -/
def IsCopy (start : Memory) (handles : Handles) (memory : Memory) : Prop :=
  handles.inside = memory ∧ handles.shared = start.tables

theorem agree_onCopy (start : Memory) (inside inTransaction : Bool) :
    Agree (onCopy patience) inside (backend patience) inTransaction (IsCopy start) := by
  rintro operation handles memory ⟨rfl, hshared⟩
  exact ⟨rfl, rfl, hshared⟩

/-- A body is told the same on the copy and on the store, and leaves on the copy what it would leave in the store. -/
theorem run_onCopy {α : Type} (body : Script α) (inTransaction : Bool) (hbody : body.Flat ∨ inTransaction = true) :
    exchanges (onCopy patience) true body (.copied memory) = exchanges (backend patience) inTransaction body memory ∧
      ((body.run (onCopy patience) true).run (.copied memory)).1 = ((body.run (backend patience) inTransaction).run memory).1 ∧
      IsCopy memory ((body.run (onCopy patience) true).run (.copied memory)).2
        ((body.run (backend patience) inTransaction).run memory).2 :=
  run_of_agree (agree_onCopy patience memory true inTransaction) body (hbody.imp_right fun h => ⟨rfl, h⟩) ⟨rfl, rfl⟩

/-- To put the tables back after a failure is to have worked on a copy. -/
theorem transact_eq_transactOnCopy {β : Type} (body : Script (Outcome Unit × β)) :
    (transact (body.run (backend patience) true)).run memory =
      (transactOnCopy (body.run (onCopy patience) true)).run memory := by
  obtain ⟨-, hsame, hcopy, hshared⟩ := run_onCopy patience memory body true (.inr rfl)
  rw [run_transact, transactOnCopy]
  simp only [StateT.run_bind, StateT.run_get, pure_bind]
  rcases hdirect : (body.run (backend patience) true).run memory with ⟨⟨outcome, learned⟩, after⟩
  rcases hrun : (body.run (onCopy patience) true).run (.copied memory) with ⟨ended, handles⟩
  rw [hdirect, hrun] at hsame hcopy
  rw [hrun] at hshared
  obtain rfl : ended = (outcome, learned) := hsame
  obtain rfl : handles.inside = after := hcopy
  cases outcome with
  | ok => rfl
  | error failure =>
    rw [← hshared]
    rfl

/-- What a transaction leaves of a run of its body: all of it if the body ends well, and otherwise what it drew. -/
def settled {α : Type} (before : OrderedMap Table) : Outcome α × Memory → Outcome α × Memory
  | (.ok a, after) => (.ok a, after)
  | (.error failure, after) => (.error failure, { after with tables := before })

theorem run_conclude {α : Type} (options : TransactionOptions) (body : StateM Memory (Outcome α)) :
    ((backend patience).conclude false options body).run memory = settled memory.tables (body.run memory) := by
  show Prod.map Database.concluded id ((transact (Database.bracketed <$> body)).run memory) = _
  rw [run_transact, StateT.run_map]
  rcases body.run memory with ⟨outcome, after⟩
  cases outcome <;> rfl

/-- A body without transactions of its own is told the same at every step in a transaction, on a copy of the tables and in the store itself, and the transaction ends as the body ends. If the body ends well the tables are as the body alone leaves them, and otherwise they are those of before. -/
theorem transaction_runs_its_body {α : Type} (options : TransactionOptions) (body : Script (Outcome α)) (hflat : body.Flat) :
    let direct := (body.run (backend patience) false).run memory
    let transaction := Database.transaction options body
    let transacted := (transaction.run (backend patience) false).run memory
    let onItsCopy := transactOnCopy ((Database.bracketed <$> body).run (onCopy patience) true)
    exchanges (onCopy patience) true body (.copied memory) = exchanges (backend patience) false body memory ∧
      exchanges (backend patience) false transaction memory = exchanges (backend patience) false body memory ∧
      transacted = (Database.concluded <$> onItsCopy).run memory ∧
      transacted.1 = direct.1 ∧
      transacted.2.sources = direct.2.sources ∧
      (∀ a, direct.1 = .ok a → transacted.2.tables = direct.2.tables) ∧
      ∀ failure, direct.1 = .error failure → transacted.2.tables = memory.tables := by
  intro direct transaction transacted onItsCopy
  obtain ⟨htold, hcopied, hcopy⟩ := run_onCopy patience memory body false (.inl hflat)
  obtain ⟨hjoined, hinside, hsame⟩ := run_onCopy patience memory body true (.inr rfl)
  -- within the transaction and without it the body does the same, for both are what it does on the copy
  have hdirect : (body.run (backend patience) true).run memory = direct :=
    Prod.ext (hinside.symm.trans hcopied) (hsame.1.symm.trans hcopy.1)
  have hexchanges : exchanges (backend patience) false transaction memory = exchanges (backend patience) false body memory :=
    calc exchanges (backend patience) false transaction memory
        = exchanges (backend patience) true (Database.bracketed <$> body) memory ++ [] := rfl
      _ = exchanges (backend patience) true body memory := by rw [List.append_nil, exchanges_map]
      _ = exchanges (backend patience) false body memory := hjoined.symm.trans htold
  have htransacted : transacted = settled memory.tables direct := by
    rw [← hdirect, ← run_conclude patience memory options (body.run (backend patience) true), ← Database.run_transaction]
  have honCopy : transacted = (Database.concluded <$> onItsCopy).run memory := by
    show Prod.map Database.concluded id ((transact ((Database.bracketed <$> body).run (backend patience) true)).run memory) = _
    rw [transact_eq_transactOnCopy, StateT.run_map]
    rfl
  refine ⟨htold, hexchanges, honCopy, ?_⟩
  rw [htransacted]
  rcases direct with ⟨outcome, after⟩
  cases outcome with
  | ok a => exact ⟨rfl, rfl, fun _ _ => rfl, nofun⟩
  | error failure => exact ⟨rfl, rfl, nofun, fun _ _ => rfl⟩

/-- A body that counts after it has added a record, and fails with what it counted. -/
def regret : Script (Outcome Unit) :=
  .step (.insert "Dog" [("name", .string "Max")]) fun _ =>
    .step (.count { className := "Dog" }) fun counted =>
      .done (counted.bind fun number => .error (.unsupportedOperation s!"{number.repr} dogs"))

theorem regret_changes_no_tables :
    let transacted := ((Database.transaction {} regret).run (backend 2) false).run oneDog
    regret.Flat ∧ transacted.1 = .error (.unsupportedOperation "2 dogs") ∧ transacted.2.tables = oneDog.tables ∧
      transacted.2.sources.draws = 2 := by
  intro transacted
  have hflat : regret.Flat := fun _ _ => trivial
  obtain ⟨-, -, -, hended, hsources, -, hfailed⟩ := transaction_runs_its_body 2 oneDog {} regret hflat
  have hdirect : ((regret.run (backend 2) false).run oneDog).1 = .error (.unsupportedOperation "2 dogs") := rfl
  exact ⟨hflat, hended.trans hdirect, hfailed _ hdirect, congrArg Sources.draws hsources⟩

end Copy

end Memory

end ObjectStore
