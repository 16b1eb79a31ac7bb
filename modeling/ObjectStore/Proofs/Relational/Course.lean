import ObjectStore.Proofs.Relational.Dialogue
import ObjectStore.Proofs.Relational.Statement

/-!
# Courses of dialogues

A course of a dialogue is one way through it: the requests that were made with the answers that came, and the result. What a session sends falls into a few kinds, told apart by the words that a text begins with: those that open or end a transaction, those that deal with savepoints, and the writes that may lose a race, which a transaction guards by a savepoint of their own.
-/

namespace ObjectStore

namespace Relational

namespace Dialogue

variable {α β : Type}

inductive Course : Dialogue α → Trace → α → Prop where
  | done (result : α) : Course (done result) [] result
  | ask {request : Request} {next : request.Answer → Dialogue α} (answer : request.Answer) {rest : Trace} {result : α}
      (hrest : Course (next answer) rest result) : Course (ask request next) (⟨request, answer⟩ :: rest) result

/-- The course that a dialogue takes with a server. -/
def play (server : (request : Request) → request.Answer) : Dialogue α → Trace × α
  | done result => ([], result)
  | ask request next =>
    let rest := (next (server request)).play server
    (⟨request, server request⟩ :: rest.1, rest.2)

theorem course_play (server : (request : Request) → request.Answer) (dialogue : Dialogue α) :
    Course dialogue (dialogue.play server).1 (dialogue.play server).2 := by
  induction dialogue with
  | done result => exact .done result
  | ask request next ih => exact .ask (server request) (ih (server request))

theorem course_pure {result other : α} {trace : Trace} (h : Course (pure result) trace other) : trace = [] ∧ other = result := by
  cases h
  exact ⟨rfl, rfl⟩

theorem course_ask {request : Request} {trace : Trace} {answer : request.Answer} (h : Course (Dialogue.ask request done) trace answer) :
    trace = [⟨request, answer⟩] := by
  cases h with
  | ask answer hrest =>
    cases hrest
    rfl

theorem Course.bind {dialogue : Dialogue α} {next : α → Dialogue β} {trace : Trace} {b : β} (h : Course (dialogue >>= next) trace b) :
    ∃ first a second, trace = first ++ second ∧ Course dialogue first a ∧ Course (next a) second b := by
  induction dialogue generalizing trace with
  | done a => exact ⟨[], a, trace, rfl, .done a, h⟩
  | ask request more ih =>
    change Course (Dialogue.ask request fun answer => more answer >>= next) trace b at h
    cases h with
    | ask answer hrest =>
      obtain ⟨first, a, second, rfl, hfirst, hsecond⟩ := ih answer hrest
      exact ⟨⟨request, answer⟩ :: first, a, second, rfl, .ask answer hfirst, hsecond⟩

/-- The second of two steps is taken only if the first succeeds. -/
theorem Course.andThen {step : Dialogue (Outcome α)} {next : α → Dialogue (Outcome β)} {trace : Trace} {outcome : Outcome β}
    (h : Course (andThen step next) trace outcome) :
    (∃ failure, Course step trace (.error failure) ∧ outcome = .error failure) ∨
      ∃ first a second, trace = first ++ second ∧ Course step first (.ok a) ∧ Course (next a) second outcome := by
  obtain ⟨first, result, second, rfl, hfirst, hsecond⟩ := Course.bind h
  cases result with
  | ok a => exact .inr ⟨first, a, second, rfl, hfirst, hsecond⟩
  | error failure =>
    obtain ⟨rfl, rfl⟩ := course_pure hsecond
    exact .inl ⟨failure, by rwa [List.append_nil], rfl⟩

theorem course_map {dialogue : Dialogue α} {f : α → β} {trace : Trace} {b : β} (h : Course (f <$> dialogue) trace b) :
    ∃ a, Course dialogue trace a ∧ b = f a := by
  obtain ⟨first, a, second, rfl, hfirst, hsecond⟩ := Course.bind h
  obtain ⟨rfl, rfl⟩ := course_pure hsecond
  exact ⟨a, by rwa [List.append_nil], rfl⟩

/-- A text that cannot be sent fails without a request. -/
theorem course_sending {text : String} {ask : Dialogue (Except ServerError α)} {trace : Trace} {outcome : Outcome α}
    (h : Course (Connection.sending text ask) trace outcome) :
    (text.toList.contains '\x00' = true ∧ trace = [] ∧ ∃ failure, outcome = .error failure) ∨
      ∃ answer, Course ask trace answer ∧ outcome = outcomeOf answer := by
  obtain ⟨answer, hanswer, rfl⟩ := course_map h
  split at hanswer
  · next hzero =>
    obtain ⟨rfl, rfl⟩ := course_pure hanswer
    exact .inl ⟨hzero, rfl, _, rfl⟩
  · exact .inr ⟨answer, hanswer, rfl⟩

/-- A text without a zero character is sent. -/
theorem course_run {text : String} (hzero : text.toList.contains '\x00' = false) {trace : Trace} {outcome : Outcome Unit}
    (h : Course (connection.run text) trace outcome) :
    ∃ answer, trace = [⟨.batch text, answer⟩] ∧ outcome = outcomeOf answer := by
  rcases course_sending h with ⟨hcontains, -⟩ | ⟨answer, hanswer, rfl⟩
  · rw [hzero] at hcontains
    cases hcontains
  · exact ⟨answer, course_ask hanswer, rfl⟩

end Dialogue

/-! ### Kinds of statements -/

namespace Sql

def begins (words text : String) : Bool := words.toList.isPrefixOf text.toList

/-- What follows a name between quotes. -/
def afterQuotes : List Char → List Char
  | '"' :: '"' :: rest => afterQuotes rest
  | '"' :: rest => rest
  | _ :: rest => afterQuotes rest
  | [] => []

/-- The texts that open or end a transaction. -/
def isBracket (text : String) : Bool :=
  ["BEGIN", "COMMIT", "ROLLBACK"].any (begins · text) && !begins "ROLLBACK TO" text

def isSavepoint (text : String) : Bool := ["SAVEPOINT", "RELEASE", "ROLLBACK TO"].any (begins · text)

/-- The writes that may lose a race: those that make a table, a column or a record. -/
def isContested (text : String) : Bool :=
  ["CREATE TABLE", "INSERT", "ALTER TABLE \""].any (begins · text) &&
    (!begins "ALTER TABLE \"" text || " ADD COLUMN".toList.isPrefixOf (afterQuotes (text.toList.drop 13)))

def setSavepoint (savepoint : String) : String := "SAVEPOINT " ++ savepoint

def release (savepoint : String) : String := "RELEASE SAVEPOINT " ++ savepoint

def rollBackTo (savepoint : String) : String := "ROLLBACK TO SAVEPOINT " ++ savepoint

end Sql

namespace Request

def text? : Request → Option String
  | now | drawId | lookup _ => none
  | batch text => some text
  | query statement | execute statement => some statement.text

/-- Whether a text is sent that is of a kind. -/
def sends (kind : String → Bool) (request : Request) : Bool := request.text?.any kind

end Request

abbrev Event := (request : Request) × request.Answer

def Event.succeeded : Event → Bool
  | ⟨.now, _⟩ | ⟨.drawId, _⟩ => true
  | ⟨.lookup _, .ok _⟩ | ⟨.batch _, .ok _⟩ | ⟨.query _, .ok _⟩ | ⟨.execute _, .ok _⟩ => true
  | ⟨.lookup _, .error _⟩ | ⟨.batch _, .error _⟩ | ⟨.query _, .error _⟩ | ⟨.execute _, .error _⟩ => false

/-- How a savepoint ends. -/
def Event.ending (event : Event) (savepoint : String) : String :=
  if event.succeeded then Sql.release savepoint else Sql.rollBackTo savepoint

/-! ### Traces of sessions -/

/-- Whether a request may stand by itself. -/
structure Request.Plain (inTransaction : Bool) (request : Request) : Prop where
  noBracket : request.sends Sql.isBracket = false
  noSavepoint : request.sends Sql.isSavepoint = false
  uncontested : inTransaction = true → request.sends Sql.isContested = false

/-- The traces of a session. Only in a transaction are there savepoints: one is refused, or holds a single statement whose answer decides how it ends, or ends at once because the statement could not be sent. -/
inductive Trace.Spoken (inTransaction : Bool) : Trace → Prop where
  | nil : Spoken inTransaction []
  | plain {event : Event} {rest : Trace} (hplain : event.1.Plain inTransaction) (hrest : Spoken inTransaction rest) :
      Spoken inTransaction (event :: rest)
  | refused {rest : Trace} (hinside : inTransaction = true) (savepoint : String) (error : ServerError)
      (hrest : Spoken inTransaction rest) : Spoken inTransaction (⟨.batch (Sql.setSavepoint savepoint), .error error⟩ :: rest)
  | guarded {rest : Trace} (hinside : inTransaction = true) (savepoint : String) (event : Event) (hplain : event.1.Plain false)
      (answer : Except ServerError Unit) (hrest : Spoken inTransaction rest) :
      Spoken inTransaction
        (⟨.batch (Sql.setSavepoint savepoint), .ok ()⟩ :: event :: ⟨.batch (event.ending savepoint), answer⟩ :: rest)
  | unsent {rest : Trace} (hinside : inTransaction = true) (savepoint : String) (answer : Except ServerError Unit)
      (hrest : Spoken inTransaction rest) :
      Spoken inTransaction (⟨.batch (Sql.setSavepoint savepoint), .ok ()⟩ :: ⟨.batch (Sql.rollBackTo savepoint), answer⟩ :: rest)

/-- Whether a statement stands directly between a savepoint that was set and the end of it that its answer calls for. -/
def Event.Guarded (event : Event) (before after : Trace) : Prop :=
  ∃ savepoint earlier answer later, before = earlier ++ [⟨.batch (Sql.setSavepoint savepoint), .ok ()⟩] ∧
    after = ⟨.batch (event.ending savepoint), answer⟩ :: later

theorem Event.Guarded.after {event : Event} {before after : Trace} (h : event.Guarded before after) (front : Trace) :
    event.Guarded (front ++ before) after := by
  obtain ⟨savepoint, earlier, answer, later, rfl, rfl⟩ := h
  exact ⟨savepoint, front ++ earlier, answer, later, (List.append_assoc _ _ _).symm, rfl⟩

namespace Sql

theorem begins_append {words opening : String} (h : begins words opening = true) (rest : String) :
    begins words (opening ++ rest) = true := by
  rw [begins, List.isPrefixOf_iff_prefix] at h ⊢
  rw [String.toList_append]
  exact h.trans (List.prefix_append _ _)

def Opens (opening text : String) : Prop := ∃ rest, text = opening ++ rest

theorem opens_of_begins {opening text : String} (h : begins opening text = true) : Opens opening text := by
  obtain ⟨rest, hrest⟩ := List.isPrefixOf_iff_prefix.mp h
  refine ⟨String.ofList rest, String.toList_inj.mp ?_⟩
  rw [String.toList_append, String.toList_ofList, hrest]

theorem opens_self (opening rest : String) : Opens opening (opening ++ rest) := ⟨rest, rfl⟩

theorem Opens.append {opening text : String} (h : Opens opening text) (more : String) : Opens opening (text ++ more) := by
  obtain ⟨rest, rfl⟩ := h
  exact ⟨rest ++ more, String.append_assoc ..⟩

/-- Whether no text with an opening begins with one of some words, whatever follows. -/
def apart (words : List String) (opening : String) : Bool :=
  words.all fun word => !begins word opening && !begins opening word

theorem any_begins_append {words : List String} {opening : String} (h : apart words opening = true) (rest : String) :
    words.any (begins · (opening ++ rest)) = false := by
  rw [List.any_eq_false]
  intro word hword hbegins
  have hapart := List.all_eq_true.mp h word hword
  rw [begins, List.isPrefixOf_iff_prefix, String.toList_append] at hbegins
  rcases List.prefix_or_prefix_of_prefix hbegins (List.prefix_append _ _) with hshort | hlong
  · simp [begins, List.isPrefixOf_iff_prefix.mpr hshort] at hapart
  · simp [begins, List.isPrefixOf_iff_prefix.mpr hlong] at hapart

theorem Opens.isBracket {opening text : String} (h : Opens opening text) (hapart : apart ["BEGIN", "COMMIT", "ROLLBACK"] opening = true) :
    isBracket text = false := by
  obtain ⟨rest, rfl⟩ := h
  rw [Sql.isBracket, any_begins_append hapart, Bool.false_and]

theorem Opens.isSavepoint {opening text : String} (h : Opens opening text)
    (hapart : apart ["SAVEPOINT", "RELEASE", "ROLLBACK TO"] opening = true) : isSavepoint text = false := by
  obtain ⟨rest, rfl⟩ := h
  exact any_begins_append hapart rest

theorem Opens.isContested {opening text : String} (h : Opens opening text)
    (hapart : apart ["CREATE TABLE", "INSERT", "ALTER TABLE \""] opening = true) : isContested text = false := by
  obtain ⟨rest, rfl⟩ := h
  rw [Sql.isContested, any_begins_append hapart, Bool.false_and]

theorem kinds_setSavepoint (savepoint : String) :
    isBracket (setSavepoint savepoint) = false ∧ isContested (setSavepoint savepoint) = false :=
  ⟨(opens_self "SAVEPOINT " savepoint).isBracket (by decide), (opens_self "SAVEPOINT " savepoint).isContested (by decide)⟩

theorem kinds_rollBackTo (savepoint : String) :
    isBracket (rollBackTo savepoint) = false ∧ isContested (rollBackTo savepoint) = false := by
  refine ⟨?_, (opens_self "ROLLBACK TO SAVEPOINT " savepoint).isContested (by decide)⟩
  have hwords : begins "ROLLBACK TO" (rollBackTo savepoint) = true := begins_append (by decide) savepoint
  rw [isBracket, hwords, Bool.not_true, Bool.and_false]

theorem kinds_ending (event : Event) (savepoint : String) :
    isBracket (event.ending savepoint) = false ∧ isContested (event.ending savepoint) = false := by
  rw [Event.ending]
  split
  · exact ⟨(opens_self "RELEASE SAVEPOINT " savepoint).isBracket (by decide), (opens_self "RELEASE SAVEPOINT " savepoint).isContested (by decide)⟩
  · exact kinds_rollBackTo savepoint

end Sql

namespace Trace.Spoken

variable {inTransaction : Bool} {trace : Trace}

theorem append {first second : Trace} (h : Spoken inTransaction first) (hsecond : Spoken inTransaction second) :
    Spoken inTransaction (first ++ second) := by
  induction h with
  | nil => exact hsecond
  | plain hplain _ ih => exact .plain hplain ih
  | refused hinside savepoint error _ ih => exact .refused hinside savepoint error ih
  | guarded hinside savepoint event hplain answer _ ih => exact .guarded hinside savepoint event hplain answer ih
  | unsent hinside savepoint answer _ ih => exact .unsent hinside savepoint answer ih

theorem plain_of_outside (h : Spoken false trace) : ∀ event ∈ trace, event.1.Plain false := by
  induction h with
  | nil => simp
  | plain hplain _ ih => exact List.forall_mem_cons.mpr ⟨hplain, ih⟩
  | refused hinside _ _ _ _ => cases hinside
  | guarded hinside _ _ _ _ _ _ => cases hinside
  | unsent hinside _ _ _ _ => cases hinside

theorem noBracket (h : Spoken inTransaction trace) : ∀ event ∈ trace, event.1.sends Sql.isBracket = false := by
  induction h with
  | nil => simp
  | plain hplain _ ih => exact List.forall_mem_cons.mpr ⟨hplain.noBracket, ih⟩
  | refused _ savepoint _ _ ih => exact List.forall_mem_cons.mpr ⟨(Sql.kinds_setSavepoint savepoint).1, ih⟩
  | guarded _ savepoint event hplain _ _ ih =>
    simp only [List.forall_mem_cons]
    exact ⟨(Sql.kinds_setSavepoint savepoint).1, hplain.noBracket, (Sql.kinds_ending event savepoint).1, ih⟩
  | unsent _ savepoint _ _ ih =>
    simp only [List.forall_mem_cons]
    exact ⟨(Sql.kinds_setSavepoint savepoint).1, (Sql.kinds_rollBackTo savepoint).1, ih⟩

/-- In a transaction every contested write is guarded. -/
theorem guarded_of_contested (h : Spoken true trace) {before after : Trace} {event : Event} (htrace : trace = before ++ event :: after)
    (hcontested : event.1.sends Sql.isContested = true) : event.Guarded before after := by
  induction h generalizing before with
  | nil => exact absurd htrace.symm (List.append_ne_nil_of_right_ne_nil _ (List.cons_ne_nil _ _))
  | plain hplain _ ih =>
    rcases List.cons_eq_append_iff.mp htrace with ⟨rfl, hfirst⟩ | ⟨earlier, rfl, hrest⟩
    · cases hfirst
      rw [hplain.uncontested rfl] at hcontested
      cases hcontested
    · exact (ih hrest).after [_]
  | refused _ savepoint error _ ih =>
    rcases List.cons_eq_append_iff.mp htrace with ⟨rfl, hfirst⟩ | ⟨earlier, rfl, hrest⟩
    · cases hfirst
      exact absurd hcontested (Bool.eq_false_iff.mp (Sql.kinds_setSavepoint savepoint).2)
    · exact (ih hrest).after [_]
  | guarded _ savepoint guarded _ answer _ ih =>
    rcases List.cons_eq_append_iff.mp htrace with ⟨rfl, hfirst⟩ | ⟨earlier, rfl, hsecond⟩
    · cases hfirst
      exact absurd hcontested (Bool.eq_false_iff.mp (Sql.kinds_setSavepoint savepoint).2)
    rcases List.cons_eq_append_iff.mp hsecond with ⟨rfl, hfirst⟩ | ⟨earlier, rfl, hthird⟩
    · cases hfirst
      exact ⟨savepoint, [], answer, _, rfl, rfl⟩
    rcases List.cons_eq_append_iff.mp hthird with ⟨rfl, hfirst⟩ | ⟨earlier, rfl, hrest⟩
    · cases hfirst
      exact absurd hcontested (Bool.eq_false_iff.mp (Sql.kinds_ending guarded savepoint).2)
    · exact (ih hrest).after [_, _, _]
  | unsent _ savepoint answer _ ih =>
    rcases List.cons_eq_append_iff.mp htrace with ⟨rfl, hfirst⟩ | ⟨earlier, rfl, hsecond⟩
    · cases hfirst
      exact absurd hcontested (Bool.eq_false_iff.mp (Sql.kinds_setSavepoint savepoint).2)
    rcases List.cons_eq_append_iff.mp hsecond with ⟨rfl, hfirst⟩ | ⟨earlier, rfl, hrest⟩
    · cases hfirst
      exact absurd hcontested (Bool.eq_false_iff.mp (Sql.kinds_rollBackTo savepoint).2)
    · exact (ih hrest).after [_, _]

end Trace.Spoken

/-! ### What dialogues speak -/

namespace Dialogue

variable {α β : Type} {inTransaction : Bool} {patience : Nat}

def Speaks (inTransaction : Bool) (dialogue : Dialogue α) : Prop :=
  ∀ trace result, Course dialogue trace result → trace.Spoken inTransaction

theorem speaks_pure (a : α) : Speaks inTransaction (pure a) := by
  intro trace result h
  obtain ⟨rfl, rfl⟩ := course_pure h
  exact .nil

theorem Speaks.bind {dialogue : Dialogue α} {next : α → Dialogue β} (h : Speaks inTransaction dialogue)
    (hnext : ∀ a, Speaks inTransaction (next a)) : Speaks inTransaction (dialogue >>= next) := by
  intro trace result hcourse
  obtain ⟨first, a, second, rfl, hfirst, hsecond⟩ := hcourse.bind
  exact (h first a hfirst).append (hnext a second result hsecond)

theorem Speaks.map {dialogue : Dialogue α} (h : Speaks inTransaction dialogue) (f : α → β) : Speaks inTransaction (f <$> dialogue) :=
  h.bind fun a => speaks_pure (f a)

theorem Speaks.andThen {step : Dialogue (Outcome α)} {next : α → Dialogue (Outcome β)} (h : Speaks inTransaction step)
    (hnext : ∀ a, Speaks inTransaction (next a)) : Speaks inTransaction (andThen step next) := by
  apply h.bind
  rintro (failure | a)
  · exact speaks_pure _
  · exact hnext a

theorem speaks_checked {check : Outcome Unit} {next : Dialogue (Outcome α)} (h : Speaks inTransaction next) :
    Speaks inTransaction (checked check next) := by
  cases check with
  | ok _ => exact h
  | error failure => exact speaks_pure _

theorem speaks_retryRaces {races : List Race} {limit : Option Nat} {operation : Nat → Dialogue (Outcome α)}
    (h : ∀ attempt, Speaks inTransaction (operation attempt)) : Speaks inTransaction (retryRaces races limit patience operation) := by
  rw [retryRaces]
  generalize limit.getD patience - 1 = remaining
  generalize 0 = attempt
  induction remaining generalizing attempt with
  | zero => exact h attempt
  | succ remaining ih =>
    apply (h attempt).bind
    rintro (failure | a)
    · show Speaks inTransaction (if _ then _ else _)
      split
      · exact ih (attempt + 1)
      · exact speaks_pure _
    · exact speaks_pure _

theorem speaks_ask {request : Request} (h : request.Plain inTransaction) : Speaks inTransaction (ask request done) := by
  intro trace answer hcourse
  rw [course_ask hcourse]
  exact .plain h .nil

theorem speaks_sending {text : String} {ask : Dialogue (Except ServerError α)} (h : Speaks inTransaction ask) :
    Speaks inTransaction (Connection.sending text ask) := by
  apply Speaks.map
  split
  · exact speaks_pure _
  · exact h

/-- Whether a step makes one plain request at most, whose answer it passes on. -/
def Single (step : Dialogue (Outcome α)) : Prop :=
  ∀ trace outcome, Course step trace outcome →
    (trace = [] ∧ ∃ failure, outcome = .error failure) ∨
      ∃ event : Event, trace = [event] ∧ event.1.Plain false ∧ event.succeeded = outcome.isOk

theorem single_run {text : String} (h : (Request.batch text).Plain false) : Single (connection.run text) := by
  intro trace outcome hcourse
  rcases course_sending hcourse with ⟨-, hnone⟩ | ⟨answer, hanswer, rfl⟩
  · exact .inl hnone
  · refine .inr ⟨⟨.batch text, answer⟩, course_ask hanswer, h, ?_⟩
    cases answer <;> rfl

theorem single_rows {statement : Statement} (h : (Request.query statement).Plain false) : Single (connection.rows statement) := by
  intro trace outcome hcourse
  rcases course_sending hcourse with ⟨-, hnone⟩ | ⟨answer, hanswer, rfl⟩
  · exact .inl hnone
  · refine .inr ⟨⟨.query statement, answer⟩, course_ask hanswer, h, ?_⟩
    cases answer <;> rfl

theorem not_contains_of_not_mem {opening savepoint : String} (hopening : '\x00' ∉ opening.toList) (hsavepoint : '\x00' ∉ savepoint.toList) :
    (opening ++ savepoint).toList.contains '\x00' = false := by
  simp [String.toList_append, hopening, hsavepoint]

/-- If nothing follows a text, it is all that is sent. -/
theorem course_run_andThen {text : String} (hzero : text.toList.contains '\x00' = false) {last : Outcome α} {trace : Trace}
    {outcome : Outcome α} (h : Course (ObjectStore.andThen (connection.run text) fun _ => pure last) trace outcome) :
    ∃ answer, trace = [⟨.batch text, answer⟩] := by
  rcases h.andThen with ⟨_, hrun, -⟩ | ⟨first, _, second, rfl, hrun, hrest⟩
  · obtain ⟨answer, htrace, -⟩ := course_run hzero hrun
    exact ⟨answer, htrace⟩
  · obtain ⟨answer, rfl, -⟩ := course_run hzero hrun
    obtain ⟨rfl, -⟩ := course_pure hrest
    exact ⟨answer, rfl⟩

theorem course_run_bind {text : String} (hzero : text.toList.contains '\x00' = false) {last : Outcome Unit → β} {trace : Trace} {b : β}
    (h : Course (connection.run text >>= fun outcome => pure (last outcome)) trace b) : ∃ answer, trace = [⟨.batch text, answer⟩] := by
  obtain ⟨first, _, second, rfl, hrun, hrest⟩ := h.bind
  obtain ⟨answer, rfl, -⟩ := course_run hzero hrun
  obtain ⟨rfl, -⟩ := course_pure hrest
  exact ⟨answer, rfl⟩

/-- A single step is spoken under a savepoint of its own if there is a transaction. -/
theorem speaks_guarded {savepoint : String} (hsavepoint : '\x00' ∉ savepoint.toList) {step : Dialogue (Outcome α)} (h : Single step) :
    Speaks inTransaction ((session inTransaction patience).guarded savepoint step) := by
  intro trace outcome hcourse
  cases inTransaction with
  | false =>
    rcases h trace outcome hcourse with ⟨rfl, -⟩ | ⟨event, rfl, hplain, -⟩
    · exact .nil
    · exact .plain hplain .nil
  | true =>
    have hset := not_contains_of_not_mem (by decide : '\x00' ∉ "SAVEPOINT ".toList) hsavepoint
    have hrelease := not_contains_of_not_mem (by decide : '\x00' ∉ "RELEASE SAVEPOINT ".toList) hsavepoint
    have hback := not_contains_of_not_mem (by decide : '\x00' ∉ "ROLLBACK TO SAVEPOINT ".toList) hsavepoint
    rcases Course.andThen hcourse with ⟨failure, hrefused, -⟩ | ⟨first, _, second, rfl, hopened, hsecond⟩
    · obtain ⟨answer, rfl, houtcome⟩ := course_run hset hrefused
      cases answer with
      | ok _ => cases houtcome
      | error error => exact .refused rfl savepoint error .nil
    obtain ⟨opened, rfl, houtcome⟩ := course_run hset hopened
    obtain ⟨⟩ | ⟨⟨⟩⟩ := opened
    · cases houtcome
    obtain ⟨stepped, result, ended, rfl, hstepped, hended⟩ := hsecond.bind
    cases result with
    | ok a =>
      obtain ⟨answer, rfl⟩ := course_run_andThen hrelease hended
      rcases h stepped _ hstepped with ⟨-, failure, hfailure⟩ | ⟨event, rfl, hplain, hsucceeded⟩
      · cases hfailure
      have hspoken : Trace.Spoken true _ := .guarded rfl savepoint event hplain answer .nil
      rwa [Event.ending, hsucceeded] at hspoken
    | error failure =>
      obtain ⟨answer, rfl⟩ := course_run_bind hback hended
      rcases h stepped _ hstepped with ⟨rfl, -⟩ | ⟨event, rfl, hplain, hsucceeded⟩
      · exact .unsent rfl savepoint answer .nil
      have hspoken : Trace.Spoken true _ := .guarded rfl savepoint event hplain answer .nil
      rwa [Event.ending, hsucceeded] at hspoken

end Dialogue

end Relational

end ObjectStore
