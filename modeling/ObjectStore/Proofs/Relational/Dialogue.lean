import ObjectStore.Relational.Session

/-!
# Dialogues with a server

An operation makes one request after another, and which one comes next may depend on every answer so far. A dialogue is the tree of all these courses, with a branch for every answer. The connection that only notes what is requested turns an operation of a session into its dialogue, so what holds on every branch holds whatever a server answers.
-/

namespace ObjectStore

namespace Relational

/-- What an operation can ask for. -/
inductive Request where
  | now
  | drawId
  | lookup (name : String)
  | batch (text : String)
  | query (statement : Statement)
  | execute (statement : Statement)

def Request.Answer : Request → Type
  | now => Instant
  | drawId => String
  | lookup _ => Except ServerError (List (String × String × String))
  | batch _ => Except ServerError Unit
  | query _ => Except ServerError Rows
  | execute _ => Except ServerError Nat

/-- Requests with their answers, in the order in which they were made. -/
abbrev Trace := List ((request : Request) × request.Answer)

/-- Whether a statement was answered with rows, after one trace and within another. -/
def Trace.Answers (past later : Trace) (statement : Statement) (rows : Rows) : Prop :=
  ∃ earlier : Trace, past <+: earlier ∧ earlier ++ [⟨.query statement, .ok rows⟩] <+: later

theorem Trace.Answers.widen {past later before after : Trace} {statement : Statement} {rows : Rows}
    (h : Answers past later statement rows) (hbefore : before <+: past) (hafter : later <+: after) :
    Answers before after statement rows := by
  obtain ⟨earlier, hpast, hlater⟩ := h
  exact ⟨earlier, hbefore.trans hpast, hlater.trans hafter⟩

inductive Dialogue (α : Type) : Type where
  | done (result : α)
  | ask (request : Request) (next : request.Answer → Dialogue α)

namespace Dialogue

variable {α β : Type}

def bind : Dialogue α → (α → Dialogue β) → Dialogue β
  | done result, k => k result
  | ask request next, k => ask request fun answer => (next answer).bind k

instance : Monad Dialogue where
  pure := done
  bind := bind

def connection : Connection Dialogue where
  now := ask .now done
  drawId := ask .drawId done
  lookup name := ask (.lookup name) done
  batch text := ask (.batch text) done
  query statement := ask (.query statement) done
  execute statement := ask (.execute statement) done

def session (inTransaction : Bool) (patience : Nat) : Session Dialogue where
  connection := connection
  inTransaction := inTransaction
  patience := patience

/-- Whether only requests are made that are allowed after what came before, whatever is answered, and only wanted results are reached. -/
inductive Obeys (allowed : Trace → Request → Prop) (wanted : Trace → α → Prop) : Trace → Dialogue α → Prop where
  | ends {past : Trace} {result : α} (hwanted : wanted past result) : Obeys allowed wanted past (done result)
  | asks {past : Trace} {request : Request} {next : request.Answer → Dialogue α} (hallowed : allowed past request)
      (hnext : ∀ answer, Obeys allowed wanted (past ++ [⟨request, answer⟩]) (next answer)) :
      Obeys allowed wanted past (ask request next)

/-- Whether only allowed requests are made, and what comes of them is a failure or wanted. -/
def Yields (allowed : Trace → Request → Prop) (wanted : Trace → α → Prop) (past : Trace) (dialogue : Dialogue (Outcome α)) : Prop :=
  Obeys allowed (fun later outcome => ∀ a, outcome = .ok a → wanted later a) past dialogue

variable {allowed : Trace → Request → Prop} {wanted : Trace → α → Prop} {wantedNext : Trace → β → Prop} {past : Trace}

theorem Obeys.isAllowed {request : Request} {next : request.Answer → Dialogue α} (h : Obeys allowed wanted past (ask request next)) :
    allowed past request := by
  cases h with
  | asks hallowed _ => exact hallowed

theorem Obeys.answered {request : Request} {next : request.Answer → Dialogue α} (h : Obeys allowed wanted past (ask request next))
    (answer : request.Answer) : Obeys allowed wanted (past ++ [⟨request, answer⟩]) (next answer) := by
  cases h with
  | asks _ hnext => exact hnext answer

theorem Obeys.bind {dialogue : Dialogue α} {next : α → Dialogue β} (h : Obeys allowed wanted past dialogue)
    (hnext : ∀ later a, past <+: later → wanted later a → Obeys allowed wantedNext later (next a)) :
    Obeys allowed wantedNext past (dialogue >>= next) := by
  induction h with
  | ends hwanted => exact hnext _ _ (List.prefix_refl _) hwanted
  | asks hallowed _ ih =>
    refine .asks hallowed fun answer => ih answer ?_
    intro later a hlater
    exact hnext later a ((List.prefix_append _ _).trans hlater)

theorem Obeys.mono {dialogue : Dialogue α} {weaker : Trace → α → Prop} (h : Obeys allowed wanted past dialogue)
    (hweaker : ∀ later a, past <+: later → wanted later a → weaker later a) : Obeys allowed weaker past dialogue := by
  induction h with
  | ends hwanted => exact .ends (hweaker _ _ (List.prefix_refl _) hwanted)
  | asks hallowed _ ih =>
    refine .asks hallowed fun answer => ih answer ?_
    intro later a hlater
    exact hweaker later a ((List.prefix_append _ _).trans hlater)

/-- What is allowed may be described more loosely. -/
theorem Obeys.loosen {dialogue : Dialogue α} {looser : Trace → Request → Prop} (h : Obeys allowed wanted past dialogue)
    (hlooser : ∀ later request, allowed later request → looser later request) : Obeys looser wanted past dialogue := by
  induction h with
  | ends hwanted => exact .ends hwanted
  | asks hallowed _ ih => exact .asks (hlooser _ _ hallowed) ih

theorem obeys_pure {a : α} (h : wanted past a) : Obeys allowed wanted past (pure a) := .ends h

theorem Obeys.map {dialogue : Dialogue α} {f : α → β} (h : Obeys allowed (fun later a => wantedNext later (f a)) past dialogue) :
    Obeys allowed wantedNext past (f <$> dialogue) :=
  h.bind fun _ _ _ ha => .ends ha

/-- One request is made, and its answer is noted. -/
theorem obeys_ask {request : Request} (h : allowed past request) :
    Obeys allowed (fun later answer => ⟨request, answer⟩ ∈ later) past (ask request done) := by
  refine .asks h fun answer => .ends ?_
  exact List.mem_append_right past List.mem_cons_self

/-! ### Outcomes -/

theorem yields_pure {outcome : Outcome α} (h : ∀ a, outcome = .ok a → wanted past a) : Yields allowed wanted past (pure outcome) :=
  .ends h

theorem yields_ok {a : α} (h : wanted past a) : Yields allowed wanted past (pure (.ok a)) := by
  apply yields_pure
  rintro _ ⟨⟩
  exact h

theorem yields_error (failure : Failure) : Yields allowed wanted past (pure (.error failure)) :=
  yields_pure nofun

theorem Yields.andThen {step : Dialogue (Outcome α)} {next : α → Dialogue (Outcome β)} (h : Yields allowed wanted past step)
    (hnext : ∀ later a, past <+: later → wanted later a → Yields allowed wantedNext later (next a)) :
    Yields allowed wantedNext past (andThen step next) := by
  apply Obeys.bind h
  intro later outcome hlater hwanted
  cases outcome with
  | ok a => exact hnext later a hlater (hwanted a rfl)
  | error failure => exact yields_error failure

theorem yields_checked {check : Outcome Unit} {next : Dialogue (Outcome α)} (h : check = .ok () → Yields allowed wanted past next) :
    Yields allowed wanted past (checked check next) := by
  cases check with
  | ok _ => exact h rfl
  | error failure => exact yields_error failure

theorem yields_retryFrom {races : List Race} {operation : Nat → Dialogue (Outcome α)}
    (h : ∀ attempt later, past <+: later → Yields allowed wanted later (operation attempt)) (remaining attempt : Nat) {now : Trace}
    (hnow : past <+: now) : Yields allowed wanted now (retryFrom races operation remaining attempt) := by
  induction remaining generalizing attempt now with
  | zero => exact h attempt now hnow
  | succ remaining ih =>
    apply Obeys.bind (h attempt now hnow)
    intro later outcome hlater hwanted
    cases outcome with
    | ok a => exact yields_ok (hwanted a rfl)
    | error failure =>
      show Yields allowed wanted later (if _ then _ else _)
      split
      · exact ih (attempt + 1) (hnow.trans hlater)
      · exact yields_error failure

/-- Every attempt of a retried operation is bound by what binds one. -/
theorem yields_retryRaces {races : List Race} {limit : Option Nat} {patience : Nat} {operation : Nat → Dialogue (Outcome α)}
    (h : ∀ attempt later, past <+: later → Yields allowed wanted later (operation attempt)) :
    Yields allowed wanted past (retryRaces races limit patience operation) :=
  yields_retryFrom h _ 0 (List.prefix_refl past)

/-! ### Requests of a session -/

/-- A text that was sent with success was answered so. -/
theorem yields_run {text : String} (h : allowed past (.batch text)) :
    Yields allowed (fun later _ => ⟨.batch text, .ok ()⟩ ∈ later) past (connection.run text) := by
  apply Obeys.map
  split
  · exact obeys_pure nofun
  · refine (obeys_ask h).mono ?_
    intro later answer _ hmem _ hok
    cases answer with
    | ok _ => exact hmem
    | error error => cases hok

theorem yields_rows {statement : Statement} (h : allowed past (.query statement)) :
    Yields allowed (fun later rows => Trace.Answers past later statement rows) past (connection.rows statement) := by
  apply Obeys.map
  split
  · exact obeys_pure nofun
  · refine .asks h fun answer => .ends ?_
    intro rows hrows
    cases answer with
    | ok _ =>
      obtain rfl := Except.ok.inj hrows
      exact ⟨past, List.prefix_refl past, List.prefix_refl _⟩
    | error error => cases hrows

theorem obeys_drawId (h : allowed past .drawId) : Obeys allowed (fun _ _ => True) past connection.drawId :=
  (obeys_ask h).mono fun _ _ _ _ => trivial

variable {inTransaction : Bool} {patience : Nat}

theorem yields_guarded (hbatch : ∀ past text, allowed past (.batch text)) {savepoint : String} {step : Dialogue (Outcome α)}
    (h : ∀ later, past <+: later → Yields allowed wanted later step)
    (hkept : ∀ earlier later a, earlier <+: later → wanted earlier a → wanted later a) :
    Yields allowed wanted past ((session inTransaction patience).guarded savepoint step) := by
  cases inTransaction with
  | false => exact h past (List.prefix_refl past)
  | true =>
    apply Yields.andThen (yields_run (hbatch past _))
    intro opened _ hopened _
    apply Obeys.bind (h opened hopened)
    intro stepped outcome _ hwanted
    cases outcome with
    | ok a =>
      apply Yields.andThen (yields_run (hbatch stepped _))
      intro released _ hreleased _
      exact yields_ok (hkept stepped released a hreleased (hwanted a rfl))
    | error failure =>
      apply Obeys.bind (yields_run (hbatch stepped _))
      intro _ _ _ _
      exact yields_error failure

theorem obeys_stamp (hnow : allowed past .now) :
    Obeys allowed (fun _ now => ∃ t : Instant, now = .timestamp t) past (session inTransaction patience).stamp :=
  Obeys.map ((obeys_ask hnow).mono fun _ t _ _ => ⟨t, rfl⟩)

end Dialogue

end Relational

end ObjectStore
