import ObjectStore.Proofs.Relational.Lexer
import ObjectStore.Proofs.Relational.Truth

/-!
# Reading conditions

The text of a condition, read the way a server reads it: token by token, with a level for every open bracket, `AND` before `OR`, and a placeholder standing for the value that is bound under its number and whose type its cast must name. A name that is no column of the row is refused, and so is everything that is not a condition.

The main statement is that the text of a condition whose columns are there reads as the truth value of the condition, in whatever brackets and behind however many bound values it stands.
-/

namespace ObjectStore

namespace Relational

namespace Sql

/-- What a text is read against. -/
structure Scope where
  contains : Containment
  cells : Cells
  /-- The bound values, the first of them under the number 1. -/
  bound : List Value

/-- What becomes of an operand that is read. -/
inductive Use where
  /-- It stands on the left of an operator. -/
  | left
  | compare (op : Comparison) (first : Value)
  | distinct (first : Value)
  | notDistinct (first : Value)
  | contained (document : Value)
  | pattern (text : Value)
  /-- It is a member of a list, whose earlier members gave a truth value. -/
  | member (first : Value) (earlier : Truth)
  /-- It is put into an array, which is the operand. -/
  | element (outer : Use)

/-- What is expected next. -/
inductive Phase where
  | operand (use : Use)
  /-- The rest of the cast of a placeholder. -/
  | cast (use : Use) (value : Value) (expected : List Token)
  /-- The bracket after the name of a function. -/
  | call (use : Use)
  /-- The bracket after the argument of a function. -/
  | argument (use : Use) (value : Value)
  /-- An operator, of which some words were read. -/
  | operator (left : Value) (words : List Token)
  | list (left : Value) (earlier : Truth)
  /-- The escape character of a pattern, of which some words were read. -/
  | escape (truth : Truth) (words : List Token)
  /-- What may follow a test, of which some words were read. -/
  | tested (truth : Truth) (words : List Token)

/-- A disjunction that is being read: the alternatives before the current one, and the current one so far. -/
structure Level where
  before : Truth
  current : Truth

def Level.empty : Level := ⟨.no, .yes⟩

/-- The truth of a disjunction whose last test is read. -/
def Level.close (level : Level) (last : Truth) : Truth := level.before.or (level.current.and last)

theorem Level.close_empty (last : Truth) : Level.empty.close last = last := by
  cases last <;> rfl

structure State where
  /-- The brackets that are open, the innermost first, and last what is outside all of them. -/
  levels : List Level
  phase : Phase

/-- The words that name a type in a cast. Decimals travel as text. -/
def castWords : SqlType → List Token
  | .boolean => [.sign "::", .word "boolean"]
  | .text => [.sign "::", .word "text"]
  | .bigint => [.sign "::", .word "bigint"]
  | .doublePrecision => [.sign "::", .word "double", .word "precision"]
  | .numeric => [.sign "::", .word "text", .sign "::", .word "numeric"]
  | .timestamptz => [.sign "::", .word "timestamptz"]
  | .date => [.sign "::", .word "date"]
  | .time => [.sign "::", .word "time"]
  | .bytea => [.sign "::", .word "bytea"]
  | .jsonb => [.sign "::", .word "jsonb"]

def comparison? : String → Option Comparison
  | "=" => some .equal
  | "<>" => some .notEqual
  | "<" => some .lessThan
  | ">" => some .greaterThan
  | "<=" => some .lessOrEqual
  | ">=" => some .greaterOrEqual
  | _ => none

/-- Goes on after an operand. -/
def Use.apply (scope : Scope) : Use → Value → Phase
  | left, value => .operator value []
  | compare op first, value => .tested (.compare op first value) []
  | distinct first, value => .tested (.ofBool !alike first value) []
  | notDistinct first, value => .tested (.ofBool (alike first value)) []
  | contained document, value => .tested (Condition.containedTruth scope.contains document value) []
  | pattern text, value => .escape (Condition.likeTruth value text) []
  | member first earlier, value => .list first (earlier.or (.compare .equal first value))
  | element outer, value => .argument outer (.array [value])

/-- Goes on after an operator or a beginning of one. -/
def operator? (left : Value) : List Token → Option Phase
  | [.word "IS", .word "NULL"] => some (.tested (.ofBool left.isNull) [])
  | [.word "IS", .word "NOT", .word "NULL"] => some (.tested (.ofBool !left.isNull) [])
  | [.word "IS", .word "DISTINCT", .word "FROM"] => some (.operand (.distinct left))
  | [.word "IS", .word "NOT", .word "DISTINCT", .word "FROM"] => some (.operand (.notDistinct left))
  | [.word "IN", .opening] => some (.operand (.member left .no))
  | [.word "LIKE"] => some (.operand (.pattern left))
  | [.sign "@>"] => some (.operand (.contained left))
  | [.sign sign] => (comparison? sign).map fun op => .operand (.compare op left)
  | words =>
    if [[.word "IS"], [.word "IS", .word "NOT"], [.word "IS", .word "DISTINCT"], [.word "IS", .word "NOT", .word "DISTINCT"],
        [.word "IN"]].contains words then some (.operator left words) else none

/-- Goes on after a test. -/
def afterTest? (levels : List Level) (truth : Truth) (words : List Token) : Option State :=
  match levels, words with
  | level :: outer, [.word "AND"] => some ⟨⟨level.before, level.current.and truth⟩ :: outer, .operand .left⟩
  | level :: outer, [.word "OR"] => some ⟨⟨level.close truth, .yes⟩ :: outer, .operand .left⟩
  | level :: outer, [.closing] => some ⟨outer, .tested (level.close truth) []⟩
  | levels, [.word "IS", .word "NOT", .word "TRUE"] => some ⟨levels, .tested (.ofBool !truth.isTrue) []⟩
  | levels, words =>
    if [[.word "IS"], [.word "IS", .word "NOT"]].contains words then some ⟨levels, .tested truth words⟩ else none

/-- Reads the first token of an operand. -/
def beginOperand? (scope : Scope) (use : Use) : Token → Option Phase
  | .word "NULL" => some (use.apply scope .null)
  | .word "jsonb_build_array" => some (.call use)
  | .name name => (scope.cells name).map (use.apply scope)
  | .placeholder (index + 1) => do
    let value ← scope.bound[index]?
    let type ← SqlType.ofValue? value
    some (.cast use value (castWords type))
  | _ => none

/-- Reads a token. -/
def step (scope : Scope) (state : State) (token : Token) : Option State :=
  match state.phase, token with
  | .operand .left, .word "TRUE" => some ⟨state.levels, .tested .yes []⟩
  | .operand .left, .word "FALSE" => some ⟨state.levels, .tested .no []⟩
  | .operand .left, .opening => some ⟨Level.empty :: state.levels, .operand .left⟩
  | .operand use, token => (beginOperand? scope use token).map (State.mk state.levels)
  | .cast use value [expected], token => if token = expected then some ⟨state.levels, use.apply scope value⟩ else none
  | .cast use value (expected :: more), token => if token = expected then some ⟨state.levels, .cast use value more⟩ else none
  | .call use, .opening => some ⟨state.levels, .operand (.element use)⟩
  | .argument use value, .closing => some ⟨state.levels, use.apply scope value⟩
  | .operator left words, token => (operator? left (words ++ [token])).map (State.mk state.levels)
  | .list left earlier, .comma => some ⟨state.levels, .operand (.member left earlier)⟩
  | .list _ earlier, .closing => some ⟨state.levels, .tested earlier []⟩
  | .escape truth [], .word "ESCAPE" => some ⟨state.levels, .escape truth [token]⟩
  | .escape truth [.word "ESCAPE"], .literal "\\" => some ⟨state.levels, .tested truth []⟩
  | .tested truth words, token => afterTest? state.levels truth (words ++ [token])
  | _, _ => none

/-- Reads tokens one after the other. -/
def run (scope : Scope) : State → List Token → Option State
  | state, [] => some state
  | state, token :: rest => (step scope state token).bind fun next => run scope next rest

/-- The truth value of a text, if it is a condition. -/
def read (scope : Scope) (text : String) : Option Truth := do
  let tokens ← lex text.toList
  match ← run scope ⟨[Level.empty], .operand .left⟩ tokens with
  | ⟨[level], .tested truth []⟩ => some (level.close truth)
  | _ => none

theorem run_append (scope : Scope) (state : State) (front rest : List Token) :
    run scope state (front ++ rest) = (run scope state front).bind fun next => run scope next rest := by
  induction front generalizing state with
  | nil => rfl
  | cons token front ih =>
    rw [List.cons_append, run, run, Option.bind_assoc]
    cases step scope state token with
    | none => rfl
    | some next => exact ih next

/-! ### Reading pieces -/

theorem texts_append (number : Nat) (front rest : Pieces) :
    (front ++ rest : Pieces).texts number = front.texts number ++ rest.texts (number + front.parameters.length) := by
  induction front generalizing number with
  | nil => rfl
  | cons piece front ih =>
    cases piece with
    | sql text => simp [Pieces.texts, Pieces.parameters, ih]
    | name name => simp [Pieces.texts, Pieces.parameters, ih]
    | value value =>
      cases h : SqlType.ofValue? value with
      | none => simp [Pieces.texts, Pieces.parameters, ih, h]
      | some type => simp [Pieces.texts, Pieces.parameters, ih, h, Nat.add_assoc, Nat.add_comm 1]

theorem parameters_append (front rest : Pieces) :
    (front ++ rest : Pieces).parameters = front.parameters ++ rest.parameters := by
  induction front with
  | nil => rfl
  | cons piece front ih =>
    cases piece with
    | sql text => exact ih
    | name name => exact ih
    | value value =>
      simp only [List.cons_append, Pieces.parameters, ih]
      split <;> rfl

/-- The text of some pieces, when some values are bound before them. -/
def textOf (number : Nat) (pieces : Pieces) : List Char := (String.join (pieces.texts number)).toList

theorem textOf_append (number : Nat) (front rest : Pieces) :
    textOf number (front ++ rest) = textOf number front ++ textOf (number + front.parameters.length) rest := by
  rw [textOf, texts_append, String.join_append, String.toList_append]
  rfl

theorem textOf_sql_cons (number : Nat) (text : String) (rest : Pieces) :
    textOf number (.sql text :: rest) = text.toList ++ textOf number rest := by
  rw [textOf, Pieces.texts, String.join_cons, String.toList_append]
  rfl

/-- The values of some pieces are bound, the first of them behind a number of others. -/
def Bound (scope : Scope) (number : Nat) (pieces : Pieces) : Prop := pieces.parameters <+: scope.bound.drop number

theorem Bound.of_append {scope : Scope} {number : Nat} {front rest : Pieces} (h : Bound scope number (front ++ rest)) :
    Bound scope number front ∧ Bound scope (number + front.parameters.length) rest := by
  obtain ⟨more, h⟩ := h
  rw [parameters_append, List.append_assoc] at h
  refine ⟨⟨rest.parameters ++ more, h⟩, more, ?_⟩
  rw [← List.drop_drop, ← h, List.drop_left]

/-- Reading the text of some pieces leads from one state to another. -/
def Moves (scope : Scope) (number : Nat) (pieces : Pieces) (start final : State) : Prop :=
  ∃ tokens, lex (textOf number pieces) = some tokens ∧ run scope start tokens = some final

variable {scope : Scope} {number : Nat} {start middle final : State}

namespace Moves

theorem sql {text : String} {tokens : List Token} (hlex : lex text.toList = some tokens)
    (hrun : run scope start tokens = some final) : Moves scope number [.sql text] start final := by
  refine ⟨tokens, ?_, hrun⟩
  rw [textOf_sql_cons]
  simpa [textOf, Pieces.texts] using hlex

/-- Pieces one after the other, when their texts meet at a break. -/
theorem append {front rest : Pieces} (hfront : Moves scope number front start middle)
    (hrest : Moves scope (number + front.parameters.length) rest middle final)
    (hmeet : meetsAtBreak (textOf number front) (textOf (number + front.parameters.length) rest) = true) :
    Moves scope number (front ++ rest) start final := by
  obtain ⟨first, hfirst, hrunFirst⟩ := hfront
  obtain ⟨second, hsecond, hrunSecond⟩ := hrest
  refine ⟨first ++ second, ?_, ?_⟩
  · rw [textOf_append]
    exact lex_append hfirst hsecond hmeet
  · rw [run_append, hrunFirst]
    exact hrunSecond

theorem sqlThen {text : String} {tokens : List Token} {rest : Pieces} (hlex : lex text.toList = some tokens)
    (hrun : run scope start tokens = some middle) (hbreak : text.toList.getLast?.any isBreak = true)
    (hrest : Moves scope number rest middle final) : Moves scope number (.sql text :: rest) start final := by
  have htext : textOf number [.sql text] = text.toList := by
    rw [textOf_sql_cons]
    exact List.append_nil _
  have hmeet (back : List Char) : meetsAtBreak (textOf number [.sql text]) back = true := by
    rw [meetsAtBreak, htext, hbreak]
    rfl
  have hfirst : Moves scope number [.sql text] start middle := sql hlex hrun
  exact hfirst.append hrest (hmeet _)

theorem thenSql {front : Pieces} {text : String} {rest : Pieces} (hfront : Moves scope number front start middle)
    (hbreak : text.toList.head?.any isBreak = true)
    (hrest : Moves scope (number + front.parameters.length) (.sql text :: rest) middle final) :
    Moves scope number (front ++ .sql text :: rest) start final := by
  refine append hfront hrest ?_
  rw [meetsAtBreak, textOf_sql_cons, List.head?_append]
  cases h : text.toList.head? with
  | none => simp [h] at hbreak
  | some c => simpa [h] using Or.inr hbreak

end Moves

/-! ### Terms -/

theorem lex_cast (type : SqlType) : lex ("::" ++ type.cast).toList = some (castWords type) := by
  cases type <;> rfl

theorem run_name {use : Use} {name : String} {value : Value} (hcell : scope.cells name = some value) (levels : List Level) :
    run scope ⟨levels, .operand use⟩ [.name name] = some ⟨levels, use.apply scope value⟩ := by
  cases use <;> simp [run, step, beginOperand?, hcell]

theorem run_null (use : Use) (levels : List Level) :
    run scope ⟨levels, .operand use⟩ [.word "NULL"] = some ⟨levels, use.apply scope .null⟩ := by
  cases use <;> rfl

theorem run_placeholder {use : Use} {index : Nat} {value : Value} {type : SqlType} (hbound : scope.bound[index]? = some value)
    (htype : SqlType.ofValue? value = some type) (levels : List Level) :
    run scope ⟨levels, .operand use⟩ (.placeholder (index + 1) :: castWords type) = some ⟨levels, use.apply scope value⟩ := by
  have hbegin : step scope ⟨levels, .operand use⟩ (.placeholder (index + 1)) = some ⟨levels, .cast use value (castWords type)⟩ := by
    cases use <;> simp [step, beginOperand?, hbound, htype]
  rw [run, hbegin, Option.bind_some]
  cases type <;> rfl

theorem moves_value {value : Value} (hbound : Bound scope number [.value value]) (use : Use) (levels : List Level) :
    Moves scope number [.value value] ⟨levels, .operand use⟩ ⟨levels, use.apply scope value⟩ := by
  cases htype : SqlType.ofValue? value with
  | none =>
    have hnull : value = .null := by
      cases value <;> simp [SqlType.ofValue?, FieldType.ofValue?] at htype ⊢
    subst hnull
    refine ⟨[.word "NULL"], ?_, run_null use levels⟩
    have htext : textOf number [.value .null] = "NULL".toList := rfl
    rw [htext]
    rfl
  | some type =>
    obtain ⟨more, hmore⟩ := hbound
    have hvalue : scope.bound[number]? = some value := by
      rw [← Nat.add_zero number, ← List.getElem?_drop, ← hmore]
      simp [Pieces.parameters, htype]
    refine ⟨.placeholder (number + 1) :: castWords type, ?_, run_placeholder hvalue htype levels⟩
    have htext : textOf number [.value value] = ("$" ++ toString (number + 1) ++ "::" ++ type.cast).toList := by
      simp [textOf, Pieces.texts, htype, Pieces.placeholder]
    rw [htext]
    exact lex_placeholder (number + 1) type.cast (lex_cast type)

theorem moves_term {term : Term} (hscope : term.InScope scope.cells) (hbound : Bound scope number term.pieces) (use : Use)
    (levels : List Level) :
    Moves scope number term.pieces ⟨levels, .operand use⟩ ⟨levels, use.apply scope (term.read scope.cells)⟩ := by
  cases term with
  | column name =>
    obtain ⟨value, hvalue⟩ := Option.isSome_iff_exists.mp hscope
    refine ⟨[.name name], ?_, ?_⟩
    · have htext : textOf number (Term.column name).pieces = (quoteName name).toList := by
        simp [textOf, Term.pieces, Pieces.texts]
      rw [htext]
      exact lex_quoteName name
    · rw [run_name hvalue, Term.read, hvalue]
      rfl
  | null => exact Moves.sql rfl (run_null use levels)
  | value literal => exact moves_value hbound use levels

/-! ### Conditions -/

theorem Bound.of_between {opening closing : String} {inner : Pieces}
    (h : Bound scope number (Condition.between opening inner closing)) : Bound scope number inner := by
  rw [Condition.between, ← List.singleton_append, List.append_assoc] at h
  exact h.of_append.2.of_append.1

theorem Bound.of_infix {left right : Pieces} {words : String} (h : Bound scope number (left ++ .sql words :: right)) :
    Bound scope number left ∧ Bound scope (number + left.parameters.length) right := by
  rw [← List.singleton_append] at h
  exact ⟨h.of_append.1, h.of_append.2.of_append.2⟩

/-- Words, pieces and words, when the brackets of the words stand next to the pieces. -/
theorem Moves.between {opening closing : String} {inner : Pieces} {front back : List Token} {first last : State}
    (hfront : lex opening.toList = some front) (hback : lex closing.toList = some back)
    (hopen : opening.toList.getLast?.any isBreak = true) (hclose : closing.toList.head?.any isBreak = true)
    (hfirst : run scope start front = some first) (hinner : Moves scope number inner first last)
    (hlast : run scope last back = some final) :
    Moves scope number (Condition.between opening inner closing) start final :=
  Moves.sqlThen hfront hfirst hopen (hinner.thenSql hclose (Moves.sql hback hlast))

theorem moves_infix {left : Term} {right : Pieces} {words : String} {tokens : List Token} {use : Use} {truth : Truth}
    (hwords : lex words.toList = some tokens) (hleft : left.InScope scope.cells)
    (hbound : Bound scope number (Condition.between "(" (left.pieces ++ .sql words :: right) ")"))
    (hopen : words.toList.head?.any isBreak = true) (hclose : words.toList.getLast?.any isBreak = true)
    (hoperator : ∀ levels, run scope ⟨levels, .operator (left.read scope.cells) []⟩ tokens = some ⟨levels, .operand use⟩)
    (hright : ∀ number levels, Bound scope number right →
      Moves scope number right ⟨levels, .operand use⟩ ⟨levels, .tested truth []⟩) (levels : List Level) :
    Moves scope number (Condition.between "(" (left.pieces ++ .sql words :: right) ")") ⟨levels, .operand .left⟩
      ⟨levels, .tested truth []⟩ := by
  obtain ⟨hboundLeft, hboundRight⟩ := hbound.of_between.of_infix
  have hbody := (moves_term hleft hboundLeft .left (Level.empty :: levels)).thenSql hopen
    (Moves.sqlThen hwords (hoperator _) hclose (hright _ _ hboundRight))
  have hclose : run scope ⟨Level.empty :: levels, .tested truth []⟩ [.closing] =
      some ⟨levels, .tested (Level.empty.close truth) []⟩ := rfl
  rw [Level.close_empty] at hclose
  exact Moves.between (show lex "(".toList = some [.opening] from rfl) (show lex ")".toList = some [.closing] from rfl)
    rfl rfl rfl hbody hclose

theorem moves_comparison {op : Comparison} {left right : Term} (hleft : left.InScope scope.cells)
    (hright : right.InScope scope.cells) (hbound : Bound scope number (Condition.compare op left right).pieces)
    (levels : List Level) :
    Moves scope number (Condition.compare op left right).pieces ⟨levels, .operand .left⟩
      ⟨levels, .tested ((Condition.compare op left right).truth scope.contains scope.cells) []⟩ := by
  rw [Condition.pieces] at hbound ⊢
  rw [Condition.truth]
  have hlex : lex (" " ++ Condition.sign op ++ " ").toList = some [.sign (Condition.sign op)] := by
    cases op <;> rfl
  refine moves_infix hlex hleft hbound ?_ ?_ ?_
    (fun number levels hbound => moves_term hright hbound (.compare op (left.read scope.cells)) levels) levels
  · cases op <;> rfl
  · cases op <;> rfl
  · intro levels
    cases op <;> rfl

theorem moves_element {element : Term} (hscope : element.InScope scope.cells)
    (hbound : Bound scope number (Condition.elementPieces element)) (use : Use) (levels : List Level) :
    Moves scope number (Condition.elementPieces element) ⟨levels, .operand use⟩
      ⟨levels, use.apply scope (.array [element.read scope.cells])⟩ := by
  have hcall (term : Term) (hscope : term.InScope scope.cells)
      (hbound : Bound scope number (Condition.between "jsonb_build_array(" term.pieces ")")) :
      Moves scope number (Condition.between "jsonb_build_array(" term.pieces ")") ⟨levels, .operand use⟩
        ⟨levels, use.apply scope (.array [term.read scope.cells])⟩ := by
    have hargument := moves_term hscope hbound.of_between (.element use) levels
    refine Moves.between rfl rfl rfl rfl ?_ hargument rfl
    cases use <;> rfl
  cases element with
  | column name => exact hcall _ hscope hbound
  | null => exact hcall _ hscope hbound
  | value literal => exact moves_value hbound use levels

theorem moves_like {column pattern : String} (hcolumn : (Term.column column).InScope scope.cells)
    (hbound : Bound scope number (Condition.like column pattern).pieces) (levels : List Level) :
    Moves scope number (Condition.like column pattern).pieces ⟨levels, .operand .left⟩
      ⟨levels, .tested ((Condition.like column pattern).truth scope.contains scope.cells) []⟩ := by
  rw [Condition.pieces] at hbound ⊢
  rw [Condition.truth]
  have hinner : Bound scope number ((Term.column column).pieces ++ .sql " LIKE " :: [.value (.string pattern)]) :=
    hbound.of_between
  obtain ⟨hboundColumn, hboundPattern⟩ := hinner.of_infix
  have hleft : Moves scope number (Term.column column).pieces ⟨Level.empty :: levels, .operand .left⟩
      ⟨Level.empty :: levels, .operator ((Term.column column).read scope.cells) []⟩ :=
    moves_term hcolumn hboundColumn .left _
  have hlike (value : Value) : run scope ⟨Level.empty :: levels, .operator value []⟩ [.word "LIKE"] =
      some ⟨Level.empty :: levels, .operand (.pattern value)⟩ := rfl
  have hright := moves_value hboundPattern (.pattern ((Term.column column).read scope.cells)) (Level.empty :: levels)
  have hescape (truth : Truth) : run scope ⟨Level.empty :: levels, .escape truth []⟩ [.word "ESCAPE", .literal "\\", .closing] =
      some ⟨levels, .tested truth []⟩ := by
    cases truth <;> rfl
  exact Moves.between rfl rfl rfl rfl rfl (hleft.thenSql rfl (Moves.sqlThen rfl (hlike _) rfl hright)) (hescape _)

theorem moves_members (first : Value) {values : List Value} (hnonempty : values ≠ [])
    (hbound : Bound scope number (Pieces.join ", " (values.map fun value => [.value value]))) (earlier : Truth)
    (levels : List Level) :
    Moves scope number (Pieces.join ", " (values.map fun value => [.value value]))
      ⟨levels, .operand (.member first earlier)⟩
      ⟨levels, .list first (earlier.or (.any (values.map (Truth.compare .equal first))))⟩ := by
  induction values generalizing number earlier with
  | nil => exact absurd rfl hnonempty
  | cons value rest ih =>
    cases rest with
    | nil =>
      have hread := moves_value hbound (.member first earlier) levels
      simpa [Use.apply, Truth.any, Truth.or_no, Pieces.join] using hread
    | cons next rest =>
      have hjoin : Bound scope number ([.value value] ++ .sql ", " :: Pieces.join ", "
          ((next :: rest).map fun value => [.value value])) := hbound
      obtain ⟨hvalue, hrest⟩ := hjoin.of_infix
      have hread := moves_value hvalue (.member first earlier) levels
      have hmore := ih (List.cons_ne_nil _ _) hrest (earlier.or (Truth.compare .equal first value))
      rw [Truth.or_assoc] at hmore
      exact hread.thenSql rfl (Moves.sqlThen rfl rfl rfl hmore)

/-- A condition reads as its truth value in every bracket and behind every number of bound values. -/
def Reads (scope : Scope) (condition : Condition) : Prop :=
  ∀ number levels, Bound scope number condition.pieces → Moves scope number condition.pieces ⟨levels, .operand .left⟩
    ⟨levels, .tested (condition.truth scope.contains scope.cells) []⟩

theorem moves_all {parts : List Condition} (hnonempty : parts ≠ []) (hreads : ∀ part ∈ parts, Reads scope part)
    (hbound : Bound scope number (Pieces.join " AND " (Condition.piecesOfList parts))) (level : Level) (levels : List Level) :
    ∃ current last, Moves scope number (Pieces.join " AND " (Condition.piecesOfList parts))
        ⟨level :: levels, .operand .left⟩ ⟨⟨level.before, current⟩ :: levels, .tested last []⟩ ∧
      current.and last = level.current.and (.all (Condition.truths scope.contains scope.cells parts)) := by
  induction parts generalizing number level with
  | nil => exact absurd rfl hnonempty
  | cons part rest ih =>
    have hpart := hreads part List.mem_cons_self
    cases rest with
    | nil =>
      refine ⟨level.current, part.truth scope.contains scope.cells, hpart number (level :: levels) hbound, ?_⟩
      rw [Condition.truths, Condition.truths, Truth.all, List.foldr_cons, List.foldr_nil, Truth.and_yes]
    | cons next rest =>
      have hjoin : Bound scope number (part.pieces ++ .sql " AND " :: Pieces.join " AND "
          (Condition.piecesOfList (next :: rest))) := hbound
      obtain ⟨hfirst, hrest⟩ := hjoin.of_infix
      obtain ⟨current, last, hmore, hsame⟩ := ih (List.cons_ne_nil _ _) (fun other h => hreads other (List.mem_cons_of_mem _ h))
        hrest ⟨level.before, level.current.and (part.truth scope.contains scope.cells)⟩
      refine ⟨current, last, (hpart number (level :: levels) hfirst).thenSql rfl (Moves.sqlThen rfl rfl rfl hmore), ?_⟩
      rw [hsame, Truth.and_assoc]
      rfl

theorem moves_any {parts : List Condition} (hnonempty : parts ≠ []) (hreads : ∀ part ∈ parts, Reads scope part)
    (hbound : Bound scope number (Pieces.join " OR " (Condition.piecesOfList parts))) (before : Truth) (levels : List Level) :
    ∃ before' last, Moves scope number (Pieces.join " OR " (Condition.piecesOfList parts))
        ⟨⟨before, .yes⟩ :: levels, .operand .left⟩ ⟨⟨before', .yes⟩ :: levels, .tested last []⟩ ∧
      before'.or last = before.or (.any (Condition.truths scope.contains scope.cells parts)) := by
  induction parts generalizing number before with
  | nil => exact absurd rfl hnonempty
  | cons part rest ih =>
    have hpart := hreads part List.mem_cons_self
    cases rest with
    | nil =>
      refine ⟨before, part.truth scope.contains scope.cells, hpart number (⟨before, .yes⟩ :: levels) hbound, ?_⟩
      rw [Condition.truths, Condition.truths, Truth.any, List.foldr_cons, List.foldr_nil, Truth.or_no]
    | cons next rest =>
      have hjoin : Bound scope number (part.pieces ++ .sql " OR " :: Pieces.join " OR "
          (Condition.piecesOfList (next :: rest))) := hbound
      obtain ⟨hfirst, hrest⟩ := hjoin.of_infix
      obtain ⟨before', last, hmore, hsame⟩ := ih (List.cons_ne_nil _ _) (fun other h => hreads other (List.mem_cons_of_mem _ h))
        hrest (before.or (part.truth scope.contains scope.cells))
      have hor : run scope ⟨⟨before, .yes⟩ :: levels, .tested (part.truth scope.contains scope.cells) []⟩ [.word "OR"] =
          some ⟨⟨before.or (part.truth scope.contains scope.cells), .yes⟩ :: levels, .operand .left⟩ := by
        cases part.truth scope.contains scope.cells <;> rfl
      refine ⟨before', last, (hpart number _ hfirst).thenSql rfl (Moves.sqlThen rfl hor rfl hmore), ?_⟩
      rw [hsame, Truth.or_assoc]
      rfl

theorem Moves.brackets {inner : Pieces} {level : Level} {last : Truth} {levels : List Level}
    (h : Moves scope number inner ⟨Level.empty :: levels, .operand .left⟩ ⟨level :: levels, .tested last []⟩) :
    Moves scope number (Condition.between "(" inner ")") ⟨levels, .operand .left⟩ ⟨levels, .tested (level.close last) []⟩ :=
  Moves.between (show lex "(".toList = some [.opening] from rfl) (show lex ")".toList = some [.closing] from rfl)
    rfl rfl rfl h rfl

theorem moves_inList {term : Term} {values : List Value} (hterm : term.InScope scope.cells) (hnonempty : values ≠ [])
    (hbound : Bound scope number (term.pieces ++ .sql " IN (" :: Pieces.join ", " (values.map fun value => [.value value]) ++
      [.sql ")"])) (levels : List Level) :
    Moves scope number (term.pieces ++ .sql " IN (" :: Pieces.join ", " (values.map fun value => [.value value]) ++ [.sql ")"])
      ⟨levels, .operand .left⟩
      ⟨levels, .tested (.any (values.map (Truth.compare .equal (term.read scope.cells)))) []⟩ := by
  rw [List.append_assoc, List.cons_append] at hbound ⊢
  obtain ⟨hboundTerm, hrest⟩ := hbound.of_infix
  obtain ⟨hboundMembers, -⟩ := Bound.of_append hrest
  have hleft := moves_term hterm hboundTerm .left levels
  have hmembers := moves_members (term.read scope.cells) hnonempty hboundMembers .no levels
  rw [Truth.no_or] at hmembers
  exact hleft.thenSql rfl (Moves.sqlThen rfl rfl rfl (hmembers.thenSql rfl (Moves.sql rfl rfl)))

theorem moves_isNull {term : Term} (hterm : term.InScope scope.cells)
    (hbound : Bound scope number (term.pieces ++ [.sql " IS NULL"])) (levels : List Level) :
    Moves scope number (term.pieces ++ [.sql " IS NULL"]) ⟨levels, .operand .left⟩
      ⟨levels, .tested (.ofBool (term.read scope.cells).isNull) []⟩ :=
  (moves_term hterm hbound.of_append.1 .left levels).thenSql rfl (Moves.sql rfl rfl)

theorem reads_listed {term : Term} {values : List Value} {orNull : Bool} (hterm : term.InScope scope.cells)
    (hnonempty : values ≠ [] ∨ orNull = true) : Reads scope (.listed term values orNull) := by
  intro number levels hbound
  rw [Condition.pieces] at hbound ⊢
  rw [Condition.truth, Condition.listedTruth]
  have hinner := hbound.of_between
  cases values with
  | nil =>
    obtain rfl : orNull = true := by simpa using hnonempty
    have hread := (moves_isNull hterm hinner (Level.empty :: levels)).brackets
    rw [Level.close, Level.empty, Truth.yes_and] at hread
    exact hread
  | cons value rest =>
    cases orNull with
    | false =>
      have hread := (moves_inList hterm (List.cons_ne_nil value rest) hinner (Level.empty :: levels)).brackets
      rw [Level.close, Level.empty, Truth.yes_and, Truth.no_or] at hread
      rw [if_neg Bool.false_ne_true, Truth.or_no]
      exact hread
    | true =>
      obtain ⟨hboundList, hboundNull⟩ := Bound.of_infix hinner
      have hlist := moves_inList hterm (List.cons_ne_nil value rest) hboundList (Level.empty :: levels)
      have hor (truth : Truth) : run scope ⟨Level.empty :: levels, .tested truth []⟩ [.word "OR"] =
          some ⟨⟨truth, .yes⟩ :: levels, .operand .left⟩ := by
        cases truth <;> rfl
      have hboth := fun listed : Truth => moves_isNull hterm hboundNull (⟨listed, .yes⟩ :: levels)
      have hread := (hlist.thenSql (show " OR ".toList.head?.any isBreak = true from rfl) (Moves.sqlThen rfl (hor _) rfl (hboth _))).brackets
      rw [Level.close, Truth.yes_and] at hread
      exact hread

/-- A term and words about it in brackets. -/
theorem reads_between {term : Term} {words : String} {tokens : List Token} {truth : Truth}
    (hwords : lex words.toList = some (tokens ++ [.closing])) (hopen : words.toList.head?.any isBreak = true)
    (hterm : term.InScope scope.cells) (hbound : Bound scope number (Condition.between "(" term.pieces words))
    (hoperator : ∀ levels, run scope ⟨levels, .operator (term.read scope.cells) []⟩ tokens = some ⟨levels, .tested truth []⟩)
    (levels : List Level) :
    Moves scope number (Condition.between "(" term.pieces words) ⟨levels, .operand .left⟩ ⟨levels, .tested truth []⟩ := by
  have hterm := moves_term hterm hbound.of_between .left (Level.empty :: levels)
  refine Moves.between (show lex "(".toList = some [.opening] from rfl) hwords rfl hopen rfl hterm ?_
  have hclose : run scope ⟨Level.empty :: levels, .tested truth []⟩ [.closing] =
      some ⟨levels, .tested (Level.empty.close truth) []⟩ := rfl
  rw [Level.close_empty] at hclose
  rw [Use.apply, run_append, hoperator, Option.bind_some, hclose]

theorem reads_isNotTrue {inner : Condition} (hinner : Reads scope inner) : Reads scope (.isNotTrue inner) := by
  intro number levels hbound
  rw [Condition.pieces] at hbound ⊢
  rw [Condition.truth]
  have hclose (truth : Truth) : run scope ⟨Level.empty :: Level.empty :: levels, .tested truth []⟩
      [.closing, .word "IS", .word "NOT", .word "TRUE", .closing] = some ⟨levels, .tested (.ofBool !truth.isTrue) []⟩ := by
    cases truth <;> rfl
  exact Moves.between (show lex "((".toList = some [.opening, .opening] from rfl)
    (show lex ") IS NOT TRUE)".toList = some [.closing, .word "IS", .word "NOT", .word "TRUE", .closing] from rfl) rfl rfl rfl
    (hinner number (Level.empty :: Level.empty :: levels) hbound.of_between) (hclose _)

mutual

theorem reads_condition (condition : Condition) (h : condition.WellFormed scope.cells) : Reads scope condition := by
  cases condition with
  | const flag =>
    intro number levels hbound
    cases flag <;> exact Moves.sql rfl rfl
  | isNull term =>
    intro number levels hbound
    exact reads_between (show lex " IS NULL)".toList = some ([.word "IS", .word "NULL"] ++ [.closing]) from rfl) rfl h hbound (fun _ => rfl) levels
  | isNotNull term =>
    intro number levels hbound
    exact reads_between (show lex " IS NOT NULL)".toList = some ([.word "IS", .word "NOT", .word "NULL"] ++ [.closing]) from rfl) rfl h hbound (fun _ => rfl) levels
  | compare op left right =>
    intro number levels hbound
    exact moves_comparison h.1 h.2 hbound levels
  | distinct left right =>
    intro number levels hbound
    exact moves_infix rfl h.1 hbound rfl rfl (fun _ => rfl)
      (fun _ levels hright => moves_term h.2 hright (.distinct (left.read scope.cells)) levels) levels
  | notDistinct left right =>
    intro number levels hbound
    exact moves_infix rfl h.1 hbound rfl rfl (fun _ => rfl)
      (fun _ levels hright => moves_term h.2 hright (.notDistinct (left.read scope.cells)) levels) levels
  | listed term values orNull => exact reads_listed h.1 h.2
  | hasElement column element =>
    intro number levels hbound
    have hcolumn : (Term.column column).InScope scope.cells := h.1
    exact moves_infix rfl hcolumn hbound rfl rfl (fun _ => rfl)
      (fun _ levels hright => moves_element h.2 hright (.contained ((Term.column column).read scope.cells)) levels) levels
  | like column pattern =>
    intro number levels hbound
    exact moves_like h hbound levels
  | isNotTrue inner => exact reads_isNotTrue (reads_condition inner h)
  | all parts =>
    intro number levels hbound
    obtain ⟨current, last, hmoves, hsame⟩ := moves_all h.1 (reads_conditions parts h.2) hbound.of_between Level.empty levels
    have hread := hmoves.brackets
    rw [Level.close, hsame, Level.empty, Truth.yes_and, Truth.no_or] at hread
    rw [Condition.pieces, Condition.truth]
    exact hread
  | any parts =>
    intro number levels hbound
    obtain ⟨before, last, hmoves, hsame⟩ := moves_any h.1 (reads_conditions parts h.2) hbound.of_between .no levels
    have hread := hmoves.brackets
    rw [Level.close, Truth.yes_and, hsame, Truth.no_or] at hread
    rw [Condition.pieces, Condition.truth]
    exact hread
termination_by structural condition

theorem reads_conditions (parts : List Condition) (h : Condition.AllWellFormed scope.cells parts) :
    ∀ part ∈ parts, Reads scope part := by
  cases parts with
  | nil =>
    intro part hpart
    cases hpart
  | cons first rest =>
    intro part hpart
    rcases List.mem_cons.mp hpart with hfirst | hrest
    · rw [hfirst]
      exact reads_condition first h.1
    · exact reads_conditions rest h.2 part hrest
termination_by structural parts

end

/-- The text of a condition reads as the truth value of the condition. -/
theorem read_condition {condition : Condition} (h : condition.WellFormed scope.cells)
    (hbound : Bound scope number condition.pieces) :
    read scope (String.join (condition.pieces.texts number)) = some (condition.truth scope.contains scope.cells) := by
  obtain ⟨tokens, hlex, hrun⟩ := reads_condition condition h number [Level.empty] hbound
  rw [textOf] at hlex
  simp only [read, hlex, hrun, Option.bind_eq_bind, Option.bind_some, Level.close_empty]

/-- A condition that stands alone is read with its own parameters. -/
theorem read_ofPieces (contains : Containment) {cells : Cells} {condition : Condition} (h : condition.WellFormed cells) :
    read ⟨contains, cells, condition.pieces.parameters⟩ (Statement.ofPieces condition.pieces).text =
      some (condition.truth contains cells) := by
  have hbound : Bound ⟨contains, cells, condition.pieces.parameters⟩ 0 condition.pieces := List.prefix_rfl
  exact read_condition h hbound

end Sql

end Relational

end ObjectStore
