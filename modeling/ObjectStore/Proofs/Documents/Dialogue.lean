import ObjectStore.Documents.Session

/-!
# Dialogues with a document database

A dialogue is the tree of all courses that an operation can take, with a branch for every stamp, every identifier and every answer of the database. The connection that only notes what is asked for turns an operation of a session into its dialogue. So what is shown of all courses holds with every database and at any time.
-/

namespace ObjectStore

namespace Documents

/-- What an operation can ask for. -/
inductive Request where
  | now
  | drawId
  | run (inside : Bool) (command : Command)
  | more
  | start (concerns : Concerns)
  | commit
  | abort

def Request.Answer : Request → Type
  | now => Instant
  | drawId => String
  | run _ command => Except ServerError command.Answer
  | more => Except ServerError Batch
  | start _ | commit | abort => Except ServerError Unit

/-- Requests with their answers, in the order in which they were made. -/
abbrev Trace := List ((request : Request) × request.Answer)

inductive Dialogue (α : Type) : Type where
  | done (result : α)
  | ask (request : Request) (next : request.Answer → Dialogue α)

namespace Dialogue

variable {α β : Type}

def bind : Dialogue α → (α → Dialogue β) → Dialogue β
  | done result, k => k result
  | ask request next, k => ask request fun answer => (next answer).bind k

instance : Monad Dialogue where
  pure := done
  bind := bind

def connection : Connection Dialogue where
  now := ask .now done
  drawId := ask .drawId done
  run inside command := ask (.run inside command) done
  more := ask .more done
  start concerns := ask (.start concerns) done
  commit := ask .commit done
  abort := ask .abort done

def session (inTransaction : Bool) (patience : Nat) : Session Dialogue where
  connection := connection
  inTransaction := inTransaction
  patience := patience

/-- A way through a dialogue: the requests with the answers that came, and the result. -/
inductive Course : Dialogue α → Trace → α → Prop where
  | done (result : α) : Course (done result) [] result
  | ask {request : Request} {next : request.Answer → Dialogue α} (answer : request.Answer) {rest : Trace} {result : α}
      (hrest : Course (next answer) rest result) : Course (ask request next) (⟨request, answer⟩ :: rest) result

/-- The course that a dialogue takes with a database that always gives the same answers. -/
def play (database : (request : Request) → request.Answer) : Dialogue α → Trace × α
  | done result => ([], result)
  | ask request next =>
    let rest := (next (database request)).play database
    (⟨request, database request⟩ :: rest.1, rest.2)

theorem course_play (database : (request : Request) → request.Answer) (dialogue : Dialogue α) :
    Course dialogue (dialogue.play database).1 (dialogue.play database).2 := by
  induction dialogue with
  | done result => exact .done result
  | ask request next ih => exact .ask (database request) (ih (database request))

theorem course_pure {result other : α} {trace : Trace} (h : Course (pure result) trace other) : trace = [] ∧ other = result := by
  cases h
  exact ⟨rfl, rfl⟩

theorem course_ask {request : Request} {trace : Trace} {answer : request.Answer} (h : Course (Dialogue.ask request done) trace answer) :
    trace = [⟨request, answer⟩] := by
  cases h with
  | ask answer hrest =>
    cases hrest
    rfl

theorem Course.bind {dialogue : Dialogue α} {next : α → Dialogue β} {trace : Trace} {b : β} (h : Course (dialogue >>= next) trace b) :
    ∃ first a second, trace = first ++ second ∧ Course dialogue first a ∧ Course (next a) second b := by
  induction dialogue generalizing trace with
  | done a => exact ⟨[], a, trace, rfl, .done a, h⟩
  | ask request more ih =>
    change Course (Dialogue.ask request fun answer => more answer >>= next) trace b at h
    cases h with
    | ask answer hrest =>
      obtain ⟨first, a, second, rfl, hfirst, hsecond⟩ := ih answer hrest
      exact ⟨⟨request, answer⟩ :: first, a, second, rfl, .ask answer hfirst, hsecond⟩

theorem course_map {dialogue : Dialogue α} {f : α → β} {trace : Trace} {b : β} (h : Course (f <$> dialogue) trace b) :
    ∃ a, Course dialogue trace a ∧ b = f a := by
  obtain ⟨first, a, second, rfl, hfirst, hsecond⟩ := Course.bind h
  obtain ⟨rfl, rfl⟩ := course_pure hsecond
  exact ⟨a, by rwa [List.append_nil], rfl⟩

theorem Course.andThen_pure {step : Dialogue (Outcome α)} {next : α → Outcome β} {trace : Trace} {outcome : Outcome β}
    (h : Course (andThen step fun a => pure (next a)) trace outcome) : ∃ result, Course step trace result := by
  obtain ⟨first, result, second, rfl, hfirst, hsecond⟩ := Course.bind h
  have hnone : second = [] := by
    cases result with
    | ok a => exact (course_pure hsecond).1
    | error failure => exact (course_pure hsecond).1
  exact ⟨result, by rwa [hnone, List.append_nil]⟩

/-- A step that needs a result is taken if there is one, and otherwise nothing more is asked for. -/
theorem Course.proceed {result : Outcome α} {next : α → Dialogue (Outcome β)} {trace : Trace} {outcome : Outcome β}
    (h : Course (proceed result next) trace outcome) : trace = [] ∨ ∃ a, result = .ok a ∧ Course (next a) trace outcome := by
  cases result with
  | ok a => exact .inr ⟨a, rfl, h⟩
  | error failure => exact .inl (course_pure h).1

/-- What is retried is a sequence of attempts, no more of them than allowed. -/
theorem Course.retryFrom {races : List Race} {operation : Nat → Dialogue (Outcome α)} {remaining number : Nat} {trace : Trace}
    {outcome : Outcome α} (h : Course (retryFrom races operation remaining number) trace outcome) :
    ∃ attempts : List Trace, trace = attempts.flatten ∧ attempts.length ≤ remaining + 1 ∧
      ∀ attempt ∈ attempts, ∃ later result, Course (operation later) attempt result := by
  induction remaining generalizing number trace with
  | zero =>
    exact ⟨[trace], List.flatten_singleton.symm, Nat.le_refl 1, List.forall_mem_singleton.mpr ⟨number, outcome, h⟩⟩
  | succ remaining ih =>
    obtain ⟨first, result, second, rfl, hfirst, hsecond⟩ := Course.bind h
    have hattempt : ∃ later result, Course (operation later) first result := ⟨number, result, hfirst⟩
    -- an attempt after which nothing more is asked for is the last
    have hlast (hnone : second = []) : ∃ attempts : List Trace, first ++ second = attempts.flatten ∧
        attempts.length ≤ remaining + 1 + 1 ∧ ∀ attempt ∈ attempts, ∃ later result, Course (operation later) attempt result := by
      refine ⟨[first], ?_, Nat.succ_le_succ (Nat.zero_le _), List.forall_mem_singleton.mpr hattempt⟩
      rw [hnone, List.append_nil, List.flatten_singleton]
    cases result with
    | ok a => exact hlast (course_pure hsecond).1
    | error failure =>
      dsimp only at hsecond
      split at hsecond
      · obtain ⟨attempts, rfl, hlength, hattempts⟩ := ih hsecond
        exact ⟨first :: attempts, List.flatten_cons.symm, Nat.succ_le_succ hlength, List.forall_mem_cons.mpr ⟨hattempt, hattempts⟩⟩
      · exact hlast (course_pure hsecond).1

end Dialogue

end Documents

end ObjectStore
