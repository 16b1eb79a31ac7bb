import ObjectStore.Database

/-!
# Laws of scripts

Running a script commutes with putting scripts together: to run one script and then the one that its result chooses is to run both in turn. A transaction of the object interface is the backend's own bracket around the body, with the value of the body handed through it.
-/

namespace ObjectStore

variable {m : Type → Type} [Monad m] [LawfulMonad m] (backend : Backend m) (inTransaction : Bool) {α β : Type}

namespace Script

theorem run_bind (script : Script α) (next : α → Script β) :
    (script >>= next).run backend inTransaction =
      script.run backend inTransaction >>= fun a => (next a).run backend inTransaction := by
  induction script generalizing inTransaction with
  | done result =>
    show (next result).run backend inTransaction = pure result >>= _
    rw [pure_bind]
  | step operation rest ih =>
    show (backend.perform inTransaction operation >>= fun outcome => (rest outcome >>= next).run backend inTransaction) = _
    simp only [ih, run, bind_assoc]
  | transaction options body rest _ ih =>
    show (backend.bracket inTransaction options (body.run backend true) >>= fun outcome =>
      (rest outcome >>= next).run backend inTransaction) = _
    simp only [ih, run, bind_assoc]

theorem run_map (f : α → β) (script : Script α) :
    (f <$> script).run backend inTransaction = f <$> script.run backend inTransaction := by
  rw [map_eq_pure_bind f (script.run backend inTransaction)]
  exact run_bind backend inTransaction script (pure ∘ f)

theorem run_andThen (step : Script (Outcome α)) (next : α → Script (Outcome β)) :
    (andThen step next).run backend inTransaction =
      andThen (step.run backend inTransaction) fun a => (next a).run backend inTransaction := by
  rw [andThen, andThen, run_bind]
  congr 1
  funext outcome
  cases outcome <;> rfl

theorem run_perform (operation : Operation) :
    (perform operation).run backend inTransaction = backend.perform inTransaction operation := by
  show (backend.perform inTransaction operation >>= fun outcome => pure outcome) = _
  rw [bind_pure]

end Script

namespace Backend

/-- Runs any body in one transaction, and ends with the value that the committed body computed. -/
def conclude (options : TransactionOptions) (body : m (Outcome α)) : m (Outcome α) :=
  Database.concluded <$> backend.bracket inTransaction options (Database.bracketed <$> body)

end Backend

theorem Database.run_transaction (options : TransactionOptions) (body : Script (Outcome α)) :
    (Database.transaction options body).run backend inTransaction =
      backend.conclude inTransaction options (body.run backend true) := by
  rw [Backend.conclude, map_eq_pure_bind, ← Script.run_map]
  rfl

end ObjectStore
