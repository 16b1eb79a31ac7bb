import ObjectStore.Documents.Session
import ObjectStore.Proofs.Script
import ObjectStore.Relational.Session

/-!
# Attempts at a transaction

Two of the backends open a transaction on a server, run the body in it, and commit it or roll it back. Any of these steps may fail, and a body may leave a value behind although its transaction did not commit. After a conflict the whole attempt is made again, body and all, as long as the options allow it. The server is any state that the steps and the body change.
-/

namespace ObjectStore

namespace TransactionOptions

variable {m : Type → Type} [Monad m] {β : Type} (options : TransactionOptions) (attempt : Nat → m (Outcome Unit × Option β))
  (remaining number : Nat) (earlier : Option β)

theorem retryingFrom_zero :
    options.retryingFrom attempt 0 number earlier = attempt number >>= fun ended => pure (ended.1, ended.2.or earlier) := by
  -- the recursion has no equations of its own, since it hides in a match on a pair
  delta retryingFrom
  show attempt number >>= _ = _
  congr 1
  funext ⟨outcome, learned⟩
  cases outcome <;> rfl

theorem retryingFrom_succ :
    options.retryingFrom attempt (remaining + 1) number earlier = attempt number >>= fun ended =>
      match ended.1 with
      | .ok () => pure (ended.1, ended.2.or earlier)
      | .error failure =>
        if options.shouldRetry failure number then options.retryingFrom attempt remaining (number + 1) (ended.2.or earlier)
        else pure (ended.1, ended.2.or earlier) := by
  -- the recursion has no equations of its own, since it hides in a match on a pair
  delta retryingFrom
  show attempt number >>= _ = _
  congr 1
  funext ⟨outcome, learned⟩
  cases outcome <;> rfl

end TransactionOptions

/-- The steps around the body of a transaction. -/
structure Bracket (σ : Type) where
  start : StateM σ (Outcome Unit)
  commit : StateM σ (Outcome Unit)
  rollBack : StateM σ (Outcome Unit)

namespace Bracket

variable {σ α β : Type}

/-- Runs a body once. Whether the roll-back succeeds makes no difference. -/
def attempt (bracket : Bracket σ) (body : StateM σ (Outcome Unit × β)) : StateM σ (Outcome Unit × Option β) := do
  match ← bracket.start with
  | .error failure => return (.error failure, none)
  | .ok () =>
    let (outcome, learned) ← body
    match outcome with
    | .ok () => return (← bracket.commit, some learned)
    | .error failure =>
      let _ ← bracket.rollBack
      return (.error failure, some learned)

theorem run_attempt (bracket : Bracket σ) (body : StateM σ (Outcome Unit × β)) (state : σ) :
    (bracket.attempt body).run state =
      match bracket.start.run state with
      | (.error failure, after) => ((.error failure, none), after)
      | (.ok (), opened) =>
        match body.run opened with
        | ((.ok (), learned), left) => (((bracket.commit.run left).1, some learned), (bracket.commit.run left).2)
        | ((.error failure, learned), left) => ((.error failure, some learned), (bracket.rollBack.run left).2) := by
  rw [attempt, StateT.run_bind]
  rcases bracket.start.run state with ⟨opening, opened⟩
  cases opening with
  | error failure => rfl
  | ok =>
    dsimp only
    show (body >>= _).run opened = _
    rw [StateT.run_bind]
    rcases body.run opened with ⟨⟨outcome, learned⟩, left⟩
    cases outcome <;> rfl

end Bracket

/-- How an attempt ended, and the value that its body computed, if it did. -/
structure Attempt (α : Type) where
  computed : Option α
  outcome : Outcome Unit

namespace Attempt

variable {σ α : Type}

/-- The attempt that a bracket and a body make in a state, and the state that it leaves. -/
inductive Made (bracket : Bracket σ) (body : StateM σ (Outcome α)) (state : σ) : Attempt α → σ → Prop where
  | refused {failure : Failure} {after : σ} (hstart : bracket.start.run state = (.error failure, after)) :
    Made bracket body state ⟨none, .error failure⟩ after
  | failed {opened left after : σ} {failure : Failure} {rolledBack : Outcome Unit} (hstart : bracket.start.run state = (.ok (), opened))
    (hbody : body.run opened = (.error failure, left)) (hrollBack : bracket.rollBack.run left = (rolledBack, after)) :
    Made bracket body state ⟨none, .error failure⟩ after
  | closed {opened left after : σ} {a : α} {committed : Outcome Unit} (hstart : bracket.start.run state = (.ok (), opened))
    (hbody : body.run opened = (.ok a, left)) (hcommit : bracket.commit.run left = (committed, after)) :
    Made bracket body state ⟨some a, committed⟩ after

/-- A row of attempts, each in the state that the one before it left. -/
inductive Row (bracket : Bracket σ) (body : StateM σ (Outcome α)) : σ → List (Attempt α) → σ → Prop where
  | nil (state : σ) : Row bracket body state [] state
  | cons {state middle after : σ} {attempt : Attempt α} {rest : List (Attempt α)} (hfirst : Made bracket body state attempt middle)
    (hrest : Row bracket body middle rest after) : Row bracket body state (attempt :: rest) after

/-- Whether an attempt with a number from zero on is made again. -/
def Retries (options : TransactionOptions) (number : Nat) (attempt : Attempt α) : Prop :=
  (∃ failure, attempt.outcome = .error failure ∧ failure.race? = some .conflict) ∧ options.retryOnConflict = true ∧
    number + 1 < options.maxAttempts

/-- What the transaction ends with if an attempt is the last. -/
def Concludes (attempt : Attempt α) (result : Outcome α) : Prop :=
  match attempt.outcome with
  | .error failure => result = .error failure
  | .ok () => ∃ a, attempt.computed = some a ∧ result = .ok a

/-- What a slot holds that every attempt may fill and none empties. -/
def slot (held : Option α) (attempts : List (Attempt α)) : Option α :=
  attempts.foldl (fun held attempt => attempt.computed.or held) held

theorem retries_iff {options : TransactionOptions} {number : Nat} {attempt : Attempt α} :
    attempt.Retries options number ↔ ∃ failure, attempt.outcome = .error failure ∧ options.shouldRetry failure number = true := by
  simp only [Retries, TransactionOptions.shouldRetry, Bool.and_eq_true, beq_iff_eq, decide_eq_true_eq]
  constructor
  · rintro ⟨⟨failure, hfailed, hrace⟩, hretry, hmore⟩
    exact ⟨failure, hfailed, ⟨hretry, hrace⟩, hmore⟩
  · rintro ⟨failure, hfailed, ⟨hretry, hrace⟩, hmore⟩
    exact ⟨⟨failure, hfailed, hrace⟩, hretry, hmore⟩

section

variable {bracket : Bracket σ} {body : StateM σ (Outcome α)} {state after : σ} {ended : Outcome Unit × Option (Option α)}

/-- An attempt is made, and if it is the last, what earlier attempts learned does not matter. -/
theorem made_of_run_attempt (h : (bracket.attempt (Database.bracketed <$> body)).run state = (ended, after)) :
    ∃ attempt : Attempt α, Made bracket body state attempt after ∧ ended.1 = attempt.outcome ∧
      ∀ earlier, attempt.Concludes (Database.concluded (ended.1, ended.2.or earlier)) := by
  rw [Bracket.run_attempt] at h
  rcases hstart : bracket.start.run state with ⟨⟨failure⟩ | ⟨⟨⟩⟩, opened⟩
  · rw [hstart] at h
    cases h
    exact ⟨⟨none, .error failure⟩, .refused hstart, rfl, fun _ => rfl⟩
  simp only [hstart, StateT.run_map] at h
  rcases hbody : body.run opened with ⟨failure | a, left⟩
  · rw [hbody] at h
    cases h
    exact ⟨⟨none, .error failure⟩, .failed hstart hbody rfl, rfl, fun _ => rfl⟩
  · rw [hbody] at h
    cases h
    refine ⟨⟨some a, (bracket.commit.run left).1⟩, .closed hstart hbody rfl, rfl, fun earlier => ?_⟩
    show Concludes _ (Database.concluded ((bracket.commit.run left).1, some (some a)))
    cases hcommit : (bracket.commit.run left).1 with
    | error failure => rw [Concludes]; rfl
    | ok => exact ⟨a, rfl, rfl⟩

variable {options : TransactionOptions} {remaining number : Nat} {earlier : Option (Option α)}

theorem made_of_run_retryingFrom_zero (hremaining : options.maxAttempts ≤ number)
    (h : (options.retryingFrom (fun _ => bracket.attempt (Database.bracketed <$> body)) 0 number earlier).run state = (ended, after)) :
    ∃ attempt : Attempt α, Made bracket body state attempt after ∧ ¬attempt.Retries options number ∧
      attempt.Concludes (Database.concluded ended) := by
  rcases hrun : (bracket.attempt (Database.bracketed <$> body)).run state with ⟨ended, middle⟩
  obtain ⟨attempt, hmade, -, hconcludes⟩ := made_of_run_attempt hrun
  rw [TransactionOptions.retryingFrom_zero, StateT.run_bind, hrun] at h
  cases h
  refine ⟨attempt, hmade, fun hretries => ?_, hconcludes earlier⟩
  exact absurd hretries.2.2 (Nat.not_lt.mpr (Nat.le_succ_of_le hremaining))

theorem made_of_run_retryingFrom_succ
    (h : (options.retryingFrom (fun _ => bracket.attempt (Database.bracketed <$> body)) (remaining + 1) number earlier).run state =
      (ended, after)) :
    ∃ (attempt : Attempt α) (middle : σ), Made bracket body state attempt middle ∧
      ((¬attempt.Retries options number ∧ middle = after ∧ attempt.Concludes (Database.concluded ended)) ∨
        attempt.Retries options number ∧ ∃ learned,
          (options.retryingFrom (fun _ => bracket.attempt (Database.bracketed <$> body)) remaining (number + 1) learned).run middle =
            (ended, after)) := by
  rcases hrun : (bracket.attempt (Database.bracketed <$> body)).run state with ⟨⟨outcome, learned⟩, middle⟩
  obtain ⟨attempt, hmade, hended, hconcludes⟩ := made_of_run_attempt hrun
  rw [TransactionOptions.retryingFrom_succ, StateT.run_bind, hrun] at h
  refine ⟨attempt, middle, hmade, ?_⟩
  rw [retries_iff, ← hended]
  rcases outcome with failure | ⟨⟨⟩⟩
  · change (ite _ _ _ : StateM σ _).run middle = (ended, after) at h
    by_cases hagain : options.shouldRetry failure number = true
    · rw [if_pos hagain] at h
      exact .inr ⟨⟨failure, rfl, hagain⟩, _, h⟩
    · rw [if_neg hagain] at h
      cases h
      refine .inl ⟨?_, rfl, hconcludes earlier⟩
      rintro ⟨other, hother, hretried⟩
      exact hagain (Except.error.inj hother ▸ hretried)
  · cases h
    exact .inl ⟨nofun, rfl, hconcludes earlier⟩

theorem row_of_run_retryingFrom (hremaining : options.maxAttempts ≤ number + remaining)
    (h : (options.retryingFrom (fun _ => bracket.attempt (Database.bracketed <$> body)) remaining number earlier).run state =
      (ended, after)) :
    ∃ (lost : List (Attempt α)) (last : Attempt α), Row bracket body state (lost ++ [last]) after ∧
      (∀ k (attempt : Attempt α), lost[k]? = some attempt → attempt.Retries options (number + k)) ∧
      ¬last.Retries options (number + lost.length) ∧ last.Concludes (Database.concluded ended) := by
  induction remaining generalizing number earlier state with
  | zero =>
    obtain ⟨last, hmade, hlast, hends⟩ := made_of_run_retryingFrom_zero hremaining h
    exact ⟨[], last, .cons hmade (.nil _), nofun, hlast, hends⟩
  | succ remaining ih =>
    obtain ⟨attempt, middle, hmade, ⟨hlast, rfl, hends⟩ | ⟨hagain, learned, hrest⟩⟩ := made_of_run_retryingFrom_succ h
    · exact ⟨[], attempt, .cons hmade (.nil _), nofun, hlast, hends⟩
    · obtain ⟨lost, last, hrow, hlost, hlast, hends⟩ := ih (by omega) hrest
      refine ⟨attempt :: lost, last, .cons hmade hrow, fun k other hother => ?_, ?_, hends⟩
      · cases k with
        | zero => exact Option.some.inj hother ▸ hagain
        | succ k =>
          rw [← Nat.add_assoc, Nat.add_right_comm]
          exact hlost k other hother
      · rw [List.length_cons, ← Nat.add_assoc, Nat.add_right_comm]
        exact hlast

end

end Attempt

/-- What a transaction does, given the attempts that it makes. -/
structure Retried {α : Type} (options : TransactionOptions) (attempts : List (Attempt α)) (result : Outcome α) : Prop where
  made : attempts ≠ []
  bounded : attempts.length ≤ max 1 options.maxAttempts
  again : ∀ k (attempt : Attempt α), attempts[k]? = some attempt → (k + 1 < attempts.length ↔ attempt.Retries options k)
  /-- The last attempt decides, and its failure or the value that it computed itself is the result. -/
  decided : ∀ last : Attempt α, attempts.getLast? = some last → last.Concludes result
  /-- So it is right to keep the value in a slot that all attempts share. -/
  slotted : ∀ last : Attempt α, attempts.getLast? = some last →
    result = Database.concluded (last.outcome, some (Attempt.slot none attempts))

namespace Retried

variable {σ α : Type} {options : TransactionOptions}

theorem slot_append (lost : List (Attempt α)) (last : Attempt α) :
    Attempt.slot none (lost ++ [last]) = last.computed.or (Attempt.slot none lost) :=
  List.foldl_append

theorem eq_concluded_slot {last : Attempt α} {result : Outcome α} (h : last.Concludes result) (held : Option α) :
    result = Database.concluded (last.outcome, some (last.computed.or held)) := by
  rw [Attempt.Concludes] at h
  rcases houtcome : last.outcome with failure | ⟨⟨⟩⟩
  · rw [houtcome] at h
    exact h
  · rw [houtcome] at h
    obtain ⟨a, hcomputed, rfl⟩ := h
    rw [hcomputed]
    rfl

theorem of_row {lost : List (Attempt α)} {last : Attempt α} {result : Outcome α}
    (hlost : ∀ k (attempt : Attempt α), lost[k]? = some attempt → attempt.Retries options k)
    (hlast : ¬last.Retries options lost.length) (hends : last.Concludes result) : Retried options (lost ++ [last]) result where
  made := by simp
  bounded := by
    rw [List.length_append, List.length_singleton]
    rcases Nat.eq_zero_or_pos lost.length with hnone | hsome
    · omega
    · have hretries := hlost (lost.length - 1) _ (List.getElem?_eq_getElem (Nat.sub_lt hsome Nat.one_pos))
      have := hretries.2.2
      omega
  again k attempt hattempt := by
    rw [List.length_append, List.length_singleton]
    rcases Nat.lt_trichotomy k lost.length with hlt | rfl | hgt
    · rw [List.getElem?_append_left hlt] at hattempt
      exact iff_of_true (by omega) (hlost k attempt hattempt)
    · rw [List.getElem?_append_right (Nat.le_refl _), Nat.sub_self] at hattempt
      exact iff_of_false (by omega) (Option.some.inj hattempt ▸ hlast)
    · rw [List.getElem?_eq_none (by simp; omega)] at hattempt
      cases hattempt
  decided other hother := by
    rw [List.getLast?_concat] at hother
    exact Option.some.inj hother ▸ hends
  slotted other hother := by
    rw [List.getLast?_concat] at hother
    rw [slot_append, ← Option.some.inj hother]
    exact eq_concluded_slot hends _

/-- A bracket with retrying makes attempts until one is not made again. -/
theorem of_retrying (bracket : Bracket σ) (body : StateM σ (Outcome α)) (state : σ) :
    let ended := (Database.concluded <$> options.retrying fun _ => bracket.attempt (Database.bracketed <$> body)).run state
    ∃ attempts : List (Attempt α), Attempt.Row bracket body state attempts ended.2 ∧ Retried options attempts ended.1 := by
  rcases hrun : (options.retrying fun _ => bracket.attempt (Database.bracketed <$> body)).run state with ⟨ended, after⟩
  obtain ⟨lost, last, hrow, hlost, hlast, hends⟩ := Attempt.row_of_run_retryingFrom (Nat.le_of_eq (Nat.zero_add _).symm) hrun
  rw [StateT.run_map, hrun]
  refine ⟨lost ++ [last], hrow, of_row (fun k attempt hattempt => ?_) ?_ hends⟩
  · rw [← Nat.zero_add k]
    exact hlost k attempt hattempt
  · rwa [Nat.zero_add] at hlast

end Retried

/-! ### The two backends -/

section Backends

variable {σ : Type}

/-- A session on a connection to a relational server sends the texts that open and close a transaction. -/
def Relational.Connection.bracket (connection : Relational.Connection (StateM σ)) (isolation : IsolationLevel) : Bracket σ where
  start := connection.run (Relational.beginText isolation)
  commit := connection.run "COMMIT"
  rollBack := connection.run "ROLLBACK"

/-- A session on a connection to a document server has calls that open and close a transaction. -/
def Documents.Connection.bracket (connection : Documents.Connection (StateM σ)) (isolation : IsolationLevel) : Bracket σ where
  start := Documents.outcomeOf <$> connection.start (Documents.Concerns.ofIsolation isolation)
  commit := Documents.outcomeOf <$> connection.commit
  rollBack := Documents.outcomeOf <$> connection.abort

theorem Relational.attempt_eq_bracket_attempt (connection : Relational.Connection (StateM σ)) (isolation : IsolationLevel) {β : Type}
    (body : StateM σ (Outcome Unit × β)) :
    connection.attempt isolation body = (connection.bracket isolation).attempt body := rfl

theorem Documents.attempt_eq_bracket_attempt (connection : Documents.Connection (StateM σ)) (isolation : IsolationLevel) {β : Type}
    (body : StateM σ (Outcome Unit × β)) :
    connection.attempt isolation body = (connection.bracket isolation).attempt body := rfl

/-- On both servers a transaction makes attempts as its options say, each with the body run anew, and ends with the failure of the last one or with the value that the last one computed and committed. -/
theorem transaction_retries {α : Type} (options : TransactionOptions) (body : StateM σ (Outcome α)) (state : σ) (patience : Nat) :
    (∀ connection : Relational.Connection (StateM σ),
      let ended := ((Relational.backend connection patience).conclude false options body).run state
      ∃ attempts : List (Attempt α), Attempt.Row (connection.bracket options.isolation) body state attempts ended.2 ∧
        Retried options attempts ended.1) ∧
    (∀ connection : Documents.Connection (StateM σ),
      let ended := ((Documents.backend connection patience).conclude false options body).run state
      ∃ attempts : List (Attempt α), Attempt.Row (connection.bracket options.isolation) body state attempts ended.2 ∧
        Retried options attempts ended.1) ∧
    ∀ (backend : Backend (StateM σ)) (script : Script (Outcome α)),
      (Database.transaction options script).run backend false = backend.conclude false options (script.run backend true) :=
  ⟨fun connection => Retried.of_retrying (connection.bracket options.isolation) body state,
    fun connection => Retried.of_retrying (connection.bracket options.isolation) body state,
    fun backend script => Database.run_transaction backend false options script⟩

/-- A server that counts the commits that it was asked for, and refuses the first. -/
def reluctant : Relational.Connection (StateM Nat) where
  now := pure default
  drawId := pure ""
  lookup _ := pure (.ok [])
  batch text := modifyGet fun commits =>
    if text = "COMMIT" then (if commits = 0 then .error { code := some "40001", message := "" } else .ok (), commits + 1)
    else (.ok (), commits)
  query _ := pure (.ok {})
  execute _ := pure (.ok 0)

/-- The body tells how many commits there were before it, and what its first run computed is gone. -/
example :
    let ended := ((Relational.backend reluctant 0).conclude false { retryOnConflict := true } (Except.ok <$> get)).run 0
    ended.1.toOption = some 1 ∧ ended.2 = 2 := by
  decide +kernel

end Backends

end ObjectStore
