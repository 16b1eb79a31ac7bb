import ObjectStore.Failure

/-!
# Retrying after races

An operation that lost a race is run again with the next attempt number. A bounded loop makes a given number of attempts. An unbounded one would run for as long as the race is lost, so it is cut at a number of attempts called patience, and every statement about it holds for any patience that is large enough.
-/

namespace ObjectStore

def Failure.isOneOf (failure : Failure) (races : List Race) : Bool :=
  match failure.race? with
  | some race => races.contains race
  | none => false

variable {m : Type → Type} [Monad m] {α : Type}

/-- Runs an operation with an attempt number, and again with the next ones while it fails with one of the races and attempts remain. -/
def retryFrom (races : List Race) (operation : Nat → m (Outcome α)) : Nat → Nat → m (Outcome α)
  | 0, attempt => operation attempt
  | remaining + 1, attempt => do
    match ← operation attempt with
    | .ok a => pure (.ok a)
    | .error failure =>
      if failure.isOneOf races then retryFrom races operation remaining (attempt + 1) else pure (.error failure)

/-- Runs an operation from attempt zero on. A limit of no attempts still makes one; no limit at all means patience. -/
def retryRaces (races : List Race) (limit : Option Nat) (patience : Nat) (operation : Nat → m (Outcome α)) :
    m (Outcome α) :=
  retryFrom races operation (limit.getD patience - 1) 0

inductive IsolationLevel where
  /-- Whatever the backend uses by itself. -/
  | default
  | readCommitted
  | repeatableRead
  | serializable
deriving DecidableEq

structure TransactionOptions where
  isolation : IsolationLevel := .default
  /-- Run the whole body again after a conflict. -/
  retryOnConflict : Bool := false
  /-- The most attempts that such retrying makes. -/
  maxAttempts : Nat := 8
deriving DecidableEq, Inhabited

namespace TransactionOptions

/-- Bounds the attempts; there is always one. -/
def withMaxAttempts (options : TransactionOptions) (attempts : Nat) : TransactionOptions :=
  { options with maxAttempts := max attempts 1 }

/-- Whether a body that failed at an attempt, counted from zero, runs again. -/
def shouldRetry (options : TransactionOptions) (failure : Failure) (attempt : Nat) : Bool :=
  options.retryOnConflict && failure.race? == some .conflict && attempt + 1 < options.maxAttempts

/-- Runs attempts at a transaction from one number on, at most as many more as remain. An attempt that never ran the body leaves what an earlier one learned. -/
def retryingFrom {m : Type → Type} [Monad m] {β : Type} (options : TransactionOptions)
    (attempt : Nat → m (Outcome Unit × Option β)) : Nat → Nat → Option β → m (Outcome Unit × Option β)
  | remaining, number, earlier => do
    let (outcome, learned) ← attempt number
    let result := (outcome, learned.or earlier)
    match outcome, remaining with
    | .error failure, remaining + 1 =>
      if options.shouldRetry failure number then retryingFrom options attempt remaining (number + 1) result.2
      else pure result
    | _, _ => pure result

def retrying {m : Type → Type} [Monad m] {β : Type} (options : TransactionOptions)
    (attempt : Nat → m (Outcome Unit × Option β)) : m (Outcome Unit × Option β) :=
  retryingFrom options attempt options.maxAttempts 0 none

end TransactionOptions

end ObjectStore
