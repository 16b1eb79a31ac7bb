import ObjectStore.Memory.Store

/-!
# Running actions of the in-memory store

What is true of the outcome of an action and of the state that it leaves, worked out backwards through the steps of the action: a failure ends it, and a result is handed to the next step.
-/

namespace ObjectStore

namespace Memory

variable {α β : Type}

/-- An action that starts in a state ends with an outcome and a state that satisfy a condition. -/
def Ends (action : Action α) (memory : Memory) (post : Outcome α → Memory → Prop) : Prop :=
  post (action.run.run memory).1 (action.run.run memory).2

/-- What is left to show after the first step of an action. -/
def andNext (next : α → Action β) (post : Outcome β → Memory → Prop) : Outcome α → Memory → Prop
  | .ok a, memory => Ends (next a) memory post
  | .error failure, memory => post (.error failure) memory

variable {memory : Memory} {post : Outcome α → Memory → Prop}

theorem Ends.mono {action : Action α} {weaker : Outcome α → Memory → Prop} (h : Ends action memory post)
    (himp : ∀ outcome after, post outcome after → weaker outcome after) : Ends action memory weaker :=
  himp _ _ h

theorem Ends.of_run {action : Action α} (h : Ends action memory post) {outcome : Outcome α} {after : Memory}
    (hrun : action.run.run memory = (outcome, after)) : post outcome after := by
  rwa [Ends, hrun] at h

theorem run_eq_of_ends {action : Action α} {result : Outcome α × Memory}
    (h : Ends action memory fun outcome after => (outcome, after) = result) : action.run.run memory = result := h

theorem ends_bind {first : Action α} {next : α → Action β} {post : Outcome β → Memory → Prop}
    (h : Ends first memory (andNext next post)) : Ends (first >>= next) memory post := by
  have hrun : (first >>= next).run.run memory =
      match first.run.run memory with
      | (.ok a, after) => (next a).run.run after
      | (.error failure, after) => (.error failure, after) := by
    simp only [ExceptT.run_bind, StateT.run_bind]
    rcases first.run.run memory with ⟨outcome, after⟩
    cases outcome <;> rfl
  rw [Ends] at h
  rw [Ends, hrun]
  rcases hfirst : first.run.run memory with ⟨outcome, after⟩
  rw [hfirst] at h
  cases outcome with
  | ok a => exact h
  | error failure => exact h

@[simp] theorem ends_lift {outcome : Outcome α} : Ends (liftM outcome : Action α) memory post ↔ post outcome memory := by
  cases outcome <;> rfl

theorem ends_returned {outcome : Outcome α} {wrap : α → β} {post : Outcome β → Memory → Prop} (h : ∀ result, post result memory) :
    Ends (liftM outcome >>= fun a => pure (wrap a)) memory post := by
  refine ends_bind (ends_lift.mpr ?_)
  cases outcome with
  | error failure => exact h (.error failure)
  | ok a => exact h (.ok (wrap a))

/-- An action whose failure is handed on as a result. -/
theorem ends_caught {action : Action α} {post : Outcome (Outcome α) → Memory → Prop} :
    Ends (ExceptT.lift action.run) memory post ↔ Ends action memory fun outcome after => post (.ok outcome) after := Iff.rfl

theorem ends_table? {className : String} {post : Outcome (Option Table) → Memory → Prop} :
    Ends (table? className) memory post ↔ post (.ok (OrderedMap.get? memory.tables className)) memory := Iff.rfl

theorem ends_setTable {className : String} {table : Table} {post : Outcome Unit → Memory → Prop} :
    Ends (setTable className table) memory post ↔
      post (.ok ()) { memory with tables := OrderedMap.insert memory.tables className table } := Iff.rfl

theorem ends_now {post : Outcome Value → Memory → Prop} :
    Ends now memory post ↔
      post (.ok (.timestamp (memory.sources.now .micros).1)) { memory with sources := (memory.sources.now .micros).2 } := Iff.rfl

theorem ends_drawId {post : Outcome String → Memory → Prop} :
    Ends drawId memory post ↔ post (.ok memory.sources.draw.1) { memory with sources := memory.sources.draw.2 } := Iff.rfl

end Memory

end ObjectStore
