import ObjectStore.Proofs.Outcome
import ObjectStore.Proofs.Relational.Filter
import ObjectStore.Proofs.Relational.Lexemes
import ObjectStore.Relational.Query

/-!
# The wording of statements

A statement is cut up as it was put together: every name that is quoted in it is read back as that name, every bound value as its placeholder and its cast, and all else is fixed words. This holds whatever the names and values are, because no two pieces meet inside a word, an operator or two quotes.
-/

namespace ObjectStore

namespace Relational

namespace Sql

/-! ### What a statement may consist of -/

/-- The words outside quotes that no caller chooses. -/
def keywords : List String :=
  ["NULL", "IS", "NOT", "TRUE", "FALSE", "AND", "OR", "IN", "LIKE", "ESCAPE", "DISTINCT", "FROM", "SELECT", "WHERE", "AS", "WITH",
    "ORDER", "BY", "ASC", "DESC", "NULLS", "FIRST", "LAST", "OFFSET", "LIMIT", "0", "1", "FOR", "UPDATE", "SET", "RETURNING", "JOIN", "USING",
    "DELETE", "INSERT", "INTO", "VALUES", "CASE", "WHEN", "THEN", "ELSE", "END", "COUNT", "COALESCE", "GREATEST", "LEAST", "ORDINALITY",
    "jsonb", "text", "jsonb_build_array", "jsonb_agg", "jsonb_array_elements", "element", "position", "items",
    "target", "affected", "previous", "updated", "matched"]

def operators : List String := ["(", ")", ",", ".", "=", "<>", "<", ">", "<=", ">=", "@>", "||", "+", "-", "*", "::"]

def literals : List String := ["\\", "[]"]

namespace Lexeme

def isFixed : Lexeme → Bool
  | word text => keywords.contains text
  | sign text => operators.contains text
  | name _ => false
  | literal text => literals.contains text

/-- What a statement consists of besides the values bound to it: fixed words, a few numbers, and names. -/
def Plain (known : String → Prop) (numbers : List Nat) (lexeme : Lexeme) : Prop :=
  lexeme.isFixed = true ∨ (∃ number ∈ numbers, lexeme = word (toString number)) ∨ ∃ text, lexeme = name text ∧ known text

def placeholder (number : Nat) : Lexeme := word ("$" ++ toString number)

def isPlaceholder : Lexeme → Bool
  | word text => text.toList.head? == some '$'
  | _ => false

end Lexeme

def castLexemes : SqlType → List Lexeme
  | .boolean => [.sign "::", .word "boolean"]
  | .text => [.sign "::", .word "text"]
  | .bigint => [.sign "::", .word "bigint"]
  | .doublePrecision => [.sign "::", .word "double", .word "precision"]
  | .numeric => [.sign "::", .word "text", .sign "::", .word "numeric"]
  | .timestamptz => [.sign "::", .word "timestamptz"]
  | .date => [.sign "::", .word "date"]
  | .time => [.sign "::", .word "time"]
  | .bytea => [.sign "::", .word "bytea"]
  | .jsonb => [.sign "::", .word "jsonb"]

/-- The lexemes of a text to which values are bound in turn, when some are already bound before it: each value stands there as the next placeholder and the cast of its type, with nothing but plain lexemes between. -/
inductive Laid (known : String → Prop) (numbers : List Nat) : Nat → List Value → List Lexeme → Prop where
  | nil (before : Nat) : Laid known numbers before [] []
  | plain {before : Nat} {values : List Value} {lexeme : Lexeme} {rest : List Lexeme} (hplain : lexeme.Plain known numbers)
      (hrest : Laid known numbers before values rest) : Laid known numbers before values (lexeme :: rest)
  | bound {before : Nat} {value : Value} {values : List Value} {type : SqlType} {rest : List Lexeme}
      (htype : SqlType.ofValue? value = some type) (hrest : Laid known numbers (before + 1) values rest) :
      Laid known numbers before (value :: values) (.placeholder (before + 1) :: (castLexemes type ++ rest))

/-- How a statement reads: as names that are known, as the placeholders of its values in turn, each with its cast, and else as fixed words and a few numbers. -/
structure Worded (known : String → Prop) (numbers : List Nat) (statement : Statement) (lexemes : List Lexeme) : Prop where
  scanned : scan statement.text.toList = some lexemes
  laid : Laid known numbers 0 statement.parameters lexemes
  names : ∀ name, .name name ∈ lexemes → known name
  placeholders : lexemes.filter Lexeme.isPlaceholder = (List.range' 1 statement.parameters.length).map Lexeme.placeholder

variable {known : String → Prop} {numbers : List Nat}

theorem Lexeme.Plain.not_isPlaceholder {lexeme : Lexeme} (h : lexeme.Plain known numbers) : lexeme.isPlaceholder = false := by
  rcases h with hfixed | ⟨number, -, rfl⟩ | ⟨text, rfl, -⟩
  · cases lexeme with
    | word text =>
      have hkeywords : ∀ keyword ∈ keywords, (Lexeme.word keyword).isPlaceholder = false := by decide +kernel
      exact hkeywords text (List.contains_iff_mem.mp hfixed)
    | _ => rfl
  · have hdigits : ∀ c ∈ Numeral.digits number, c.isDigit = true := fun c => Numeral.isDigit_of_mem_digits
    have hne := Numeral.digits_ne_nil number
    rw [Lexeme.isPlaceholder, Numeral.toList_toString]
    cases hchars : Numeral.digits number with
    | nil => exact absurd hchars hne
    | cons c rest =>
      rw [hchars] at hdigits
      have hc : c.isDigit = true := hdigits c List.mem_cons_self
      simp only [List.head?_cons, beq_eq_false_iff_ne, ne_eq, Option.some.injEq]
      rintro rfl
      cases hc
  · rfl

theorem Lexeme.isPlaceholder_placeholder (number : Nat) : (Lexeme.placeholder number).isPlaceholder = true := by
  rw [Lexeme.placeholder, Lexeme.isPlaceholder, String.toList_append]
  rfl

theorem not_mem_castLexemes (name : String) (type : SqlType) : Lexeme.name name ∉ castLexemes type := by
  cases type <;> simp [castLexemes]

theorem filter_castLexemes (type : SqlType) : (castLexemes type).filter Lexeme.isPlaceholder = [] := by
  cases type <;> rfl

namespace Laid

theorem of_plain {lexemes : List Lexeme} (h : ∀ lexeme ∈ lexemes, lexeme.Plain known numbers) (before : Nat) :
    Laid known numbers before [] lexemes := by
  induction lexemes with
  | nil => exact nil before
  | cons lexeme rest ih =>
    obtain ⟨hplain, hrest⟩ := List.forall_mem_cons.mp h
    exact plain hplain (ih hrest)

theorem append {before : Nat} {first second : List Value} {front rest : List Lexeme} (hfront : Laid known numbers before first front)
    (hrest : Laid known numbers (before + first.length) second rest) :
    Laid known numbers before (first ++ second) (front ++ rest) := by
  induction hfront with
  | nil => exact hrest
  | plain hplain _ ih => exact plain hplain (ih hrest)
  | bound htype _ ih =>
    rw [List.cons_append, List.cons_append, List.append_assoc]
    refine bound htype (ih ?_)
    rwa [List.length_cons, Nat.add_comm _ 1, ← Nat.add_assoc] at hrest

/-- Every quoted name is known. -/
theorem known_of_mem {before : Nat} {values : List Value} {lexemes : List Lexeme} (h : Laid known numbers before values lexemes)
    {name : String} (hname : .name name ∈ lexemes) : known name := by
  induction h with
  | nil => cases hname
  | plain hplain _ ih =>
    rcases List.mem_cons.mp hname with rfl | hrest
    · rcases hplain with hfixed | ⟨number, -, hnumber⟩ | ⟨text, htext, hknown⟩
      · cases hfixed
      · cases hnumber
      · cases htext
        exact hknown
    · exact ih hrest
  | bound htype _ ih =>
    simp only [Lexeme.placeholder, List.mem_cons, reduceCtorEq, false_or, List.mem_append] at hname
    exact ih (hname.resolve_left (not_mem_castLexemes name _))

/-- The placeholders have the numbers of the values in turn. -/
theorem filter_isPlaceholder {before : Nat} {values : List Value} {lexemes : List Lexeme} (h : Laid known numbers before values lexemes) :
    lexemes.filter Lexeme.isPlaceholder = (List.range' (before + 1) values.length).map Lexeme.placeholder := by
  induction h with
  | nil => rfl
  | plain hplain _ ih => rw [List.filter_cons_of_neg (by rw [hplain.not_isPlaceholder]; decide), ih]
  | bound htype _ ih =>
    rw [List.filter_cons_of_pos (Lexeme.isPlaceholder_placeholder _), List.filter_append, filter_castLexemes, List.nil_append, ih]
    rfl

end Laid

/-! ### Words and placeholders -/

theorem edge_of_isDigit {c : Char} (h : c.isDigit = true) : edge c = .word := by
  simp [edge, Char.isAlphanum, h]

theorem edge_of_mem_digits {number : Nat} {c : Char} (h : c ∈ Numeral.digits number) : edge c = .word :=
  edge_of_isDigit (Numeral.isDigit_of_mem_digits h)

/-- A text of word characters is one word. -/
theorem glyphs_word {text : String} (hne : text.toList ≠ []) (h : ∀ c ∈ text.toList, edge c = .word) :
    ∃ glyphs, Sql.glyphs text.toList = some glyphs ∧ lexemes glyphs = [.word text] ∧ ∀ glyph ∈ glyphs, glyph.edge = .word := by
  refine ⟨text.toList.map .char, glyphs_plain fun c hc => by simp [h c hc], ?_, ?_⟩
  · cases hchars : text.toList with
    | nil => exact absurd hchars hne
    | cons c rest =>
      rw [hchars] at h
      rw [lexemes_word h, ← hchars, String.ofList_toList]
  · intro glyph hglyph
    obtain ⟨c, hc, rfl⟩ := List.mem_map.mp hglyph
    exact h c hc

theorem glyphs_number (number : Nat) :
    ∃ glyphs, Sql.glyphs (toString number).toList = some glyphs ∧ lexemes glyphs = [.word (toString number)] ∧
      ∀ glyph ∈ glyphs, glyph.edge = .word := by
  refine glyphs_word ?_ fun c hc => ?_
  · rw [Numeral.toList_toString]
    exact Numeral.digits_ne_nil number
  · rw [Numeral.toList_toString] at hc
    exact edge_of_mem_digits hc

theorem glyphs_cast (type : SqlType) : ∃ glyphs, Sql.glyphs ("::" ++ type.cast).toList = some glyphs ∧ lexemes glyphs = castLexemes type ∧
    ∀ glyph ∈ glyphs.head?, glyph.edge = .sign := by
  cases type <;> exact ⟨_, rfl, rfl, by rintro _ ⟨⟩; rfl⟩

/-- A placeholder is its number followed by its cast. -/
theorem glyphs_placeholder (number : Nat) (type : SqlType) :
    ∃ glyphs, Sql.glyphs (Pieces.placeholder number type).toList = some glyphs ∧
      lexemes glyphs = .placeholder number :: castLexemes type := by
  have hchars : ("$" ++ toString number).toList = '$' :: Numeral.digits number := by
    rw [String.toList_append, Numeral.toList_toString]
    rfl
  have hword : ∀ c ∈ ("$" ++ toString number).toList, edge c = .word := by
    rw [hchars]
    intro c hc
    rcases List.mem_cons.mp hc with rfl | hdigit
    · rfl
    · exact edge_of_mem_digits hdigit
  obtain ⟨front, hfront, hfirst, hlast⟩ := glyphs_word (by rw [hchars]; exact List.cons_ne_nil _ _) hword
  obtain ⟨cast, hcast, hsecond, hsign⟩ := glyphs_cast type
  have hapart : Apart front cast := apart_of_edge (fun glyph hglyph => hlast glyph (List.mem_of_getLast? hglyph)) hsign (by decide)
  refine ⟨front ++ cast, ?_, ?_⟩
  · rw [Pieces.placeholder, String.append_assoc, String.toList_append]
    exact glyphs_append hfront hcast hapart
  · rw [lexemes_append hapart, hfirst, hsecond]
    rfl

/-! ### Fixed texts -/

/-- Whether a text is of fixed words only. -/
def isFixed (text : String) : Bool := (scan text.toList).any fun lexemes => lexemes.all Lexeme.isFixed

theorem glyphs_of_isFixed {text : String} (h : isFixed text = true) :
    ∃ glyphs, Sql.glyphs text.toList = some glyphs ∧ ∀ lexeme ∈ lexemes glyphs, lexeme.isFixed = true := by
  rw [isFixed, scan] at h
  cases hglyphs : Sql.glyphs text.toList with
  | none => simp [hglyphs] at h
  | some glyphs =>
    rw [hglyphs] at h
    exact ⟨glyphs, rfl, List.all_eq_true.mp h⟩

def beginsWith (edge : Edge) (text : String) : Bool := (glyphs text.toList).any fun glyphs => glyphs.head?.any (·.edge == edge)

def endsWith (edge : Edge) (text : String) : Bool := (glyphs text.toList).any fun glyphs => glyphs.getLast?.any (·.edge == edge)

theorem head_of_beginsWith {edge : Edge} {text : String} (h : beginsWith edge text = true) {glyphs : List Glyph}
    (hglyphs : Sql.glyphs text.toList = some glyphs) : ∃ first rest, glyphs = first :: rest ∧ first.edge = edge := by
  rw [beginsWith, hglyphs, Option.any_some] at h
  cases glyphs with
  | nil => cases h
  | cons first rest => exact ⟨first, rest, rfl, by simpa using h⟩

theorem last_of_endsWith {edge : Edge} {text : String} (h : endsWith edge text = true) {glyphs : List Glyph}
    (hglyphs : Sql.glyphs text.toList = some glyphs) : ∀ glyph ∈ glyphs.getLast?, glyph.edge = edge := by
  rw [endsWith, hglyphs, Option.any_some] at h
  intro glyph hglyph
  simpa [Option.mem_def.mp hglyph] using h

/-- Whether fixed words can stand before anything. -/
def isOpening (text : String) : Bool := isFixed text && endsWith .free text

/-- Whether fixed words can stand behind anything. -/
def isClosing (text : String) : Bool := isFixed text && beginsWith .free text

/-- Whether fixed words can stand between anything. -/
def isSeparator (text : String) : Bool := isOpening text && beginsWith .free text

/-- Fixed words and a number behind them are read apart. -/
theorem glyphs_numbered {text : String} (h : isSeparator text = true) (number : Nat) :
    ∃ words glyphs, scan text.toList = some words ∧ (∀ lexeme ∈ words, lexeme.isFixed = true) ∧
      Sql.glyphs (text ++ toString number).toList = some glyphs ∧ lexemes glyphs = words ++ [.word (toString number)] ∧
      ∀ glyph ∈ glyphs.head?, glyph.edge = .free := by
  obtain ⟨hopens, hbegins⟩ := Bool.and_eq_true_iff.mp h
  obtain ⟨hfixed, hends⟩ := Bool.and_eq_true_iff.mp hopens
  obtain ⟨first, hfirst, hwords⟩ := glyphs_of_isFixed hfixed
  obtain ⟨second, hsecond, hdigits, -⟩ := glyphs_number number
  have hapart := apart_of_free_left (last_of_endsWith hends hfirst) second
  obtain ⟨glyph, more, rfl, hedge⟩ := head_of_beginsWith hbegins hfirst
  refine ⟨_, glyph :: more ++ second, congrArg (Option.map lexemes) hfirst, hwords, ?_, ?_, ?_⟩
  · rw [String.toList_append]
    exact glyphs_append hfirst hsecond hapart
  · rw [lexemes_append hapart, hdigits]
  · rintro _ ⟨⟩
    exact hedge

end Sql

/-! ### Pieces -/

namespace Pieces

open Sql (Laid lexemes textOf Worded)

variable {known : String → Prop} {numbers : List Nat}

/-- The text of some pieces gives certain glyphs, when some values are bound before it, and is laid out as they tell. -/
structure Cut (known : String → Prop) (numbers : List Nat) (before : Nat) (pieces : Pieces) (glyphs : List Sql.Glyph) : Prop where
  read : Sql.glyphs (textOf before pieces) = some glyphs
  laid : Laid known numbers before pieces.parameters (lexemes glyphs)

/-- Pieces that are read as they were put together. -/
def Spelled (known : String → Prop) (numbers : List Nat) (pieces : Pieces) : Prop := ∀ before, ∃ glyphs, Cut known numbers before pieces glyphs

/-- Such pieces, of which the first begins with a certain kind of character. -/
def Begins (known : String → Prop) (numbers : List Nat) (edge : Sql.Edge) (pieces : Pieces) : Prop :=
  ∀ before, ∃ glyphs, Cut known numbers before pieces glyphs ∧ ∀ glyph ∈ glyphs.head?, glyph.edge = edge

/-- Such pieces that can stand behind anything. -/
abbrev Trails (known : String → Prop) (numbers : List Nat) (pieces : Pieces) : Prop := Begins known numbers .free pieces

theorem Cut.append {before : Nat} {front rest : Pieces} {first second : List Sql.Glyph} (hfront : Cut known numbers before front first)
    (hrest : Cut known numbers (before + front.parameters.length) rest second) (hapart : Sql.Apart first second) :
    Cut known numbers before (front ++ rest) (first ++ second) := by
  constructor
  · rw [Sql.textOf_append]
    exact Sql.glyphs_append hfront.read hrest.read hapart
  · rw [Sql.parameters_append, Sql.lexemes_append hapart]
    exact hfront.laid.append hrest.laid

/-! #### Single pieces -/

theorem spelled_nil : Spelled known numbers [] := fun before => ⟨[], rfl, .nil before⟩

theorem trails_nil : Trails known numbers [] := fun before => ⟨[], ⟨rfl, .nil before⟩, by simp⟩

theorem textOf_singleton_sql (before : Nat) (text : String) : textOf before [.sql text] = text.toList := by
  rw [Sql.textOf_sql_cons]
  exact List.append_nil _

theorem cut_plain {text : String} {glyphs : List Sql.Glyph} (hglyphs : Sql.glyphs text.toList = some glyphs)
    (h : ∀ lexeme ∈ lexemes glyphs, lexeme.Plain known numbers) (before : Nat) : Cut known numbers before [.sql text] glyphs where
  read := by rw [textOf_singleton_sql, hglyphs]
  laid := .of_plain h before

theorem cut_fixed {text : String} (h : Sql.isFixed text = true) :
    ∃ glyphs, Sql.glyphs text.toList = some glyphs ∧ ∀ before, Cut known numbers before [.sql text] glyphs := by
  obtain ⟨glyphs, hglyphs, hfixed⟩ := Sql.glyphs_of_isFixed h
  exact ⟨glyphs, hglyphs, cut_plain hglyphs fun lexeme hlexeme => Or.inl (hfixed lexeme hlexeme)⟩

theorem spelled_sql {text : String} (h : Sql.isFixed text = true) : Spelled known numbers [.sql text] := fun before =>
  have ⟨glyphs, _, hcut⟩ := cut_fixed h
  ⟨glyphs, hcut before⟩

theorem trails_sql {text : String} (h : Sql.isClosing text = true) : Trails known numbers [.sql text] := by
  obtain ⟨hfixed, hfree⟩ := Bool.and_eq_true_iff.mp h
  intro before
  obtain ⟨glyphs, hglyphs, hcut⟩ := cut_fixed hfixed
  obtain ⟨first, rest, rfl, hfirst⟩ := Sql.head_of_beginsWith hfree hglyphs
  exact ⟨_, hcut before, by simpa using hfirst⟩

theorem cut_name {name : String} (h : known name) (before : Nat) : Cut known numbers before [.name name] [.quoted '"' name.toList] := by
  have htext : textOf before [.name name] = (quoteName name).toList := by
    rw [textOf, texts, texts, String.join_cons, String.toList_append]
    exact List.append_nil _
  have hlexemes : lexemes [.quoted '"' name.toList] = [.name name] := by
    simp [lexemes, List.splitBy, List.splitBy.loop, Sql.lexeme?]
  constructor
  · rw [htext, Sql.glyphs_quoteName]
  · rw [hlexemes]
    exact .plain (Or.inr (Or.inr ⟨name, rfl, h⟩)) (.nil before)

theorem spelled_name {name : String} (h : known name) : Spelled known numbers [.name name] := fun before => ⟨_, cut_name h before⟩

theorem spelled_value (value : Value) : Spelled known numbers [.value value] := by
  intro before
  cases htype : SqlType.ofValue? value with
  | none =>
    obtain ⟨glyphs, hnull⟩ : ∃ glyphs, Cut known numbers before [.sql "NULL"] glyphs := spelled_sql rfl before
    refine ⟨glyphs, ?_, ?_⟩
    · simpa [textOf, texts, htype] using hnull.read
    · simpa [parameters, htype] using hnull.laid
  | some type =>
    obtain ⟨glyphs, hglyphs, hlexemes⟩ := Sql.glyphs_placeholder (before + 1) type
    have hbound : Laid known numbers before [value] (.placeholder (before + 1) :: (Sql.castLexemes type ++ [])) :=
      .bound htype (.nil (before + 1))
    refine ⟨glyphs, ?_, ?_⟩
    · simpa [textOf, texts, htype] using hglyphs
    · simpa [parameters, htype, hlexemes] using hbound

/-! #### Pieces one after the other -/

theorem Spelled.append {front rest : Pieces} (hfront : Spelled known numbers front) (hrest : Trails known numbers rest) :
    Spelled known numbers (front ++ rest) := by
  intro before
  obtain ⟨first, hfirst⟩ := hfront before
  obtain ⟨second, hsecond, hfree⟩ := hrest (before + front.parameters.length)
  exact ⟨_, hfirst.append hsecond (Sql.apart_of_free_right first hfree)⟩

theorem Trails.append {front rest : Pieces} (hfront : Trails known numbers front) (hrest : Trails known numbers rest) :
    Trails known numbers (front ++ rest) := by
  intro before
  obtain ⟨first, hfirst, hhead⟩ := hfront before
  obtain ⟨second, hsecond, hfree⟩ := hrest (before + front.parameters.length)
  refine ⟨_, hfirst.append hsecond (Sql.apart_of_free_right first hfree), ?_⟩
  cases first with
  | nil => exact hfree
  | cons glyph more => simpa using hhead

theorem cut_sql_cons {text : String} {rest : Pieces} (h : Sql.isOpening text = true) (hrest : Spelled known numbers rest) (before : Nat) :
    ∃ first second, Sql.glyphs text.toList = some first ∧ Cut known numbers before (.sql text :: rest) (first ++ second) := by
  obtain ⟨hfixed, hfree⟩ := Bool.and_eq_true_iff.mp h
  obtain ⟨first, hglyphs, hcut⟩ := cut_fixed hfixed
  obtain ⟨second, hsecond⟩ := hrest before
  have hapart := Sql.apart_of_free_left (Sql.last_of_endsWith hfree hglyphs) second
  exact ⟨first, second, hglyphs, (hcut before).append hsecond hapart⟩

theorem spelled_sql_cons {text : String} {rest : Pieces} (h : Sql.isOpening text = true) (hrest : Spelled known numbers rest) :
    Spelled known numbers (.sql text :: rest) := by
  intro before
  obtain ⟨first, second, -, hcut⟩ := cut_sql_cons h hrest before
  exact ⟨_, hcut⟩

theorem begins_sql_cons {edge : Sql.Edge} {text : String} {rest : Pieces} (h : Sql.isOpening text = true)
    (hbegin : Sql.beginsWith edge text = true) (hrest : Spelled known numbers rest) : Begins known numbers edge (.sql text :: rest) := by
  intro before
  obtain ⟨first, second, hglyphs, hcut⟩ := cut_sql_cons h hrest before
  obtain ⟨glyph, more, rfl, hglyph⟩ := Sql.head_of_beginsWith hbegin hglyphs
  exact ⟨_, hcut, by simpa using hglyph⟩

theorem trails_sql_cons {text : String} {rest : Pieces} (h : Sql.isSeparator text = true) (hrest : Spelled known numbers rest) :
    Trails known numbers (.sql text :: rest) := by
  obtain ⟨hopens, hbegin⟩ := Bool.and_eq_true_iff.mp h
  exact begins_sql_cons hopens hbegin hrest

/-- A name ends with a quote, so all but another quote can follow it. -/
theorem spelled_name_cons_of_begins {edge : Sql.Edge} (hedge : edge ≠ .quote) {name : String} {rest : Pieces} (h : known name)
    (hrest : Begins known numbers edge rest) : Spelled known numbers (.name name :: rest) := by
  intro before
  obtain ⟨second, hsecond, hhead⟩ := hrest before
  have hquote : ∀ glyph ∈ [Sql.Glyph.quoted '"' name.toList].getLast?, glyph.edge = .quote := by simp [Sql.Glyph.edge]
  exact ⟨_, (cut_name h before).append hsecond (Sql.apart_of_edge hquote hhead (Or.inr hedge.symm))⟩

theorem spelled_name_cons {name : String} {rest : Pieces} (h : known name) (hrest : Trails known numbers rest) :
    Spelled known numbers (.name name :: rest) :=
  spelled_name_cons_of_begins (by decide) h hrest

theorem spelled_value_cons (value : Value) {rest : Pieces} (hrest : Trails known numbers rest) :
    Spelled known numbers (.value value :: rest) :=
  Spelled.append (spelled_value value) hrest

theorem Spelled.separated {front rest : Pieces} (hfront : Spelled known numbers front) {text : String} (h : Sql.isSeparator text = true)
    (hrest : Spelled known numbers rest) : Spelled known numbers (front ++ .sql text :: rest) :=
  hfront.append (trails_sql_cons h hrest)

theorem spelled_join {separator : String} (h : Sql.isSeparator separator = true) {parts : List Pieces}
    (hparts : ∀ part ∈ parts, Spelled known numbers part) : Spelled known numbers (join separator parts) := by
  induction parts with
  | nil => exact spelled_nil
  | cons part rest ih =>
    obtain ⟨hpart, hrest⟩ := List.forall_mem_cons.mp hparts
    cases rest with
    | nil => exact hpart
    | cons next more => exact hpart.separated h (ih hrest)

/-- Fixed words with a number behind them. -/
theorem trails_number {text : String} (h : Sql.isSeparator text = true) {number : Nat} (hnumber : number ∈ numbers) :
    Trails known numbers [.sql (text ++ toString number)] := by
  obtain ⟨words, glyphs, -, hwords, hglyphs, hlexemes, hfree⟩ := Sql.glyphs_numbered h number
  have hplain : ∀ lexeme ∈ lexemes glyphs, lexeme.Plain known numbers := by
    rw [hlexemes]
    intro lexeme hlexeme
    rcases List.mem_append.mp hlexeme with hword | hdigit
    · exact Or.inl (hwords lexeme hword)
    · exact Or.inr (Or.inl ⟨number, hnumber, List.mem_singleton.mp hdigit⟩)
  exact fun before => ⟨glyphs, cut_plain hglyphs hplain before, hfree⟩

/-- A statement of such pieces reads as it was put together. -/
theorem Spelled.worded {pieces : Pieces} (h : Spelled known numbers pieces) :
    ∃ lexemes, Worded known numbers (Statement.ofPieces pieces) lexemes := by
  obtain ⟨glyphs, hglyphs, hlaid⟩ := h 0
  refine ⟨lexemes glyphs, ?_, hlaid, fun name hname => hlaid.known_of_mem hname, hlaid.filter_isPlaceholder⟩
  have htext : Sql.glyphs (Statement.ofPieces pieces).text.toList = some glyphs := hglyphs
  rw [Sql.scan, htext]
  rfl

end Pieces

/-! ### Conditions -/

open Pieces

variable {known : String → Prop} {numbers : List Nat}

theorem spelled_term {cells : Cells} (hknown : ∀ name, (cells name).isSome → known name) {term : Term} (h : term.InScope cells) :
    Spelled known numbers term.pieces := by
  cases term with
  | column name => exact spelled_name (hknown name h)
  | null => exact spelled_sql rfl
  | value value => exact spelled_value value

theorem spelled_between {opening closing : String} (hopening : Sql.isOpening opening = true) (hclosing : Sql.isClosing closing = true)
    {inner : Pieces} (h : Spelled known numbers inner) : Spelled known numbers (Condition.between opening inner closing) :=
  (spelled_sql_cons hopening h).append (trails_sql hclosing)

theorem isSeparator_sign (op : Comparison) : Sql.isSeparator (" " ++ Condition.sign op ++ " ") = true := by
  cases op <;> rfl

theorem isSeparator_comma : Sql.isSeparator ", " = true := rfl

theorem isClosing_bracket : Sql.isClosing ")" = true := rfl

theorem spelled_values (values : List Value) : Spelled known numbers (join ", " (values.map fun value => [.value value])) := by
  refine spelled_join isSeparator_comma fun part hpart => ?_
  obtain ⟨value, -, rfl⟩ := List.mem_map.mp hpart
  exact spelled_value value

theorem spelled_element {cells : Cells} (hknown : ∀ name, (cells name).isSome → known name) {element : Term} (h : element.InScope cells) : Spelled known numbers (Condition.elementPieces element) := by
  have hterm : Spelled known numbers element.pieces := spelled_term hknown h
  cases element with
  | value value => exact spelled_value _
  | _ => exact spelled_between rfl isClosing_bracket hterm

theorem spelled_listed {cells : Cells} (hknown : ∀ name, (cells name).isSome → known name) {term : Term} (h : term.InScope cells) (values : List Value) (orNull : Bool) :
    Spelled known numbers (Condition.listedPieces term values orNull) := by
  have hterm : Spelled known numbers term.pieces := spelled_term hknown h
  refine spelled_join rfl fun part hpart => ?_
  rcases List.mem_append.mp hpart with hlist | hnull
  · split at hlist
    · cases hlist
    · obtain rfl := List.mem_singleton.mp hlist
      exact (hterm.separated rfl (spelled_values values)).append (trails_sql isClosing_bracket)
  · split at hnull
    · obtain rfl := List.mem_singleton.mp hnull
      exact hterm.append (trails_sql rfl)
    · cases hnull

mutual

theorem spelled_condition {cells : Cells} (hknown : ∀ name, (cells name).isSome → known name) (condition : Condition) (h : condition.WellFormed cells) : Spelled known numbers condition.pieces := by
  cases condition with
  | const flag => cases flag <;> exact spelled_sql rfl
  | isNull term => exact spelled_between rfl rfl (spelled_term hknown h)
  | isNotNull term => exact spelled_between rfl rfl (spelled_term hknown h)
  | compare op left right =>
    refine spelled_between rfl isClosing_bracket ?_
    exact (spelled_term hknown h.1).separated (isSeparator_sign op) (spelled_term hknown h.2)
  | distinct left right =>
    refine spelled_between rfl isClosing_bracket ?_
    exact (spelled_term hknown h.1).separated rfl (spelled_term hknown h.2)
  | notDistinct left right =>
    refine spelled_between rfl isClosing_bracket ?_
    exact (spelled_term hknown h.1).separated rfl (spelled_term hknown h.2)
  | listed term values orNull => exact spelled_between rfl isClosing_bracket (spelled_listed hknown h.1 values orNull)
  | hasElement column element =>
    refine spelled_between rfl isClosing_bracket ?_
    exact spelled_name_cons (hknown column h.1) (trails_sql_cons rfl (spelled_element hknown h.2))
  | like column pattern =>
    refine spelled_between rfl rfl ?_
    exact spelled_name_cons (hknown column h) (trails_sql_cons rfl (spelled_value _))
  | isNotTrue inner => exact spelled_between rfl rfl (spelled_condition hknown inner h)
  | all parts => exact spelled_between rfl isClosing_bracket (spelled_join rfl (spelled_conditions hknown parts h.2))
  | any parts => exact spelled_between rfl isClosing_bracket (spelled_join rfl (spelled_conditions hknown parts h.2))
termination_by structural condition

theorem spelled_conditions {cells : Cells} (hknown : ∀ name, (cells name).isSome → known name) (parts : List Condition) (h : Condition.AllWellFormed cells parts) :
    ∀ part ∈ Condition.piecesOfList parts, Spelled known numbers part := by
  cases parts with
  | nil => exact List.forall_mem_nil _
  | cons first rest => exact List.forall_mem_cons.mpr ⟨spelled_condition hknown first h.1, spelled_conditions hknown rest h.2⟩
termination_by structural parts

end

/-- The names that may be quoted in a statement about a table: its own, those of its columns, and a few that every statement may use. -/
def Table.Knows (table : Table) (name : String) : Prop :=
  name = table.name ∨ table.hasColumn name = true ∨ name ∈ [FieldName.physicalId, FieldName.physicalUpdatedAt, "affected"]

namespace Table.Knows

variable {table : Table}

theorem self : table.Knows table.name := Or.inl rfl

theorem column {name : String} (h : table.hasColumn name = true) : table.Knows name := Or.inr (Or.inl h)

theorem id : table.Knows FieldName.physicalId := Or.inr (Or.inr (by simp))

theorem updatedAt : table.Knows FieldName.physicalUpdatedAt := Or.inr (Or.inr (by simp))

theorem affected : table.Knows "affected" := Or.inr (Or.inr (by simp))

end Table.Knows

variable {table : Table}

/-- A row of nulls. -/
def TableRow.null (table : Table) : TableRow table where
  cell _ := .null
  typed _ _ _ := rfl

theorem TableRow.knows_of_isSome {row : TableRow table} (name : String) (h : (row.cells name).isSome = true) : table.Knows name := by
  rw [TableRow.cells] at h
  split at h
  · next hcolumn => exact .column hcolumn
  · cases h

theorem spelled_predicate (predicate? : Option Predicate) : Spelled table.Knows numbers (Pieces.condition table predicate?) := by
  let row := TableRow.null table
  refine spelled_condition row.knows_of_isSome _ ?_
  cases predicate? with
  | none => trivial
  | some predicate => exact wellFormed_ofPredicate row predicate

/-! ### Assignments -/

theorem spelled_assignment {column : String} (h : known column) (assignment : Assignment) :
    Spelled known numbers (assignment.pieces column) := by
  cases assignment with
  | set value => exact spelled_value value
  | null => exact spelled_sql rfl
  | add delta | multiply delta | append delta =>
    exact spelled_sql_cons rfl (spelled_name_cons h (trails_sql_cons rfl (spelled_value _)))
  | greatest value | least value =>
    refine spelled_sql_cons rfl (spelled_name_cons h (trails_sql_cons rfl ?_))
    exact spelled_value_cons value (trails_sql isClosing_bracket)
  | remove elements =>
    refine spelled_sql_cons rfl (spelled_name_cons h (trails_sql_cons (by decide +kernel) ?_))
    refine spelled_name_cons h (trails_sql_cons (by decide +kernel) ?_)
    exact spelled_value_cons _ (trails_sql rfl)
  | dropFirst | dropLast => exact spelled_name_cons h (trails_sql rfl)

theorem hasColumn_of_ofUpdate? {key : String} {update : Update} {assignment : Assignment}
    (h : Assignment.ofUpdate? table key update = .ok (some assignment)) : table.hasColumn key = true := by
  rw [Assignment.ofUpdate?] at h
  split at h
  · next hcolumn => exact hcolumn
  · split at h <;> cases h

theorem hasColumn_of_mem_ofUpdates {updates : Updates} {assignments : List (String × Assignment)}
    (h : Assignment.ofUpdates table updates = .ok assignments) : ∀ entry ∈ assignments, table.hasColumn entry.1 = true := by
  induction updates generalizing assignments with
  | nil =>
    cases h
    exact List.forall_mem_nil _
  | cons entry rest ih =>
    obtain ⟨key, update⟩ := entry
    obtain ⟨assignment?, hassignment, hothers⟩ := Outcome.bind_eq_ok_iff.mp h
    obtain ⟨others, hrest, hassignments⟩ := Outcome.bind_eq_ok_iff.mp hothers
    cases hassignments
    intro entry hentry
    rcases List.mem_append.mp hentry with hfirst | hother
    · obtain ⟨assignment, hsome, rfl⟩ := Option.map_eq_some_iff.mp (Option.mem_toList.mp hfirst)
      rw [hsome] at hassignment
      exact hasColumn_of_ofUpdate? hassignment
    · exact ih hrest entry hother

theorem spelled_assignments {updates : Updates} {now : Value} {pieces : Pieces} (h : Assignment.listPieces table updates now = .ok pieces) :
    Spelled table.Knows numbers pieces := by
  obtain ⟨assignments, hassignments, hpieces⟩ := Outcome.bind_eq_ok_iff.mp h
  cases hpieces
  have hknown : ∀ entry ∈ assignments ++ [(FieldName.physicalUpdatedAt, Assignment.set now)], table.Knows entry.1 := by
    intro entry hentry
    rcases List.mem_append.mp hentry with hcolumn | hstamp
    · exact .column (hasColumn_of_mem_ofUpdates hassignments entry hcolumn)
    · rw [List.mem_singleton.mp hstamp]
      exact .updatedAt
  refine spelled_join isSeparator_comma fun part hpart => ?_
  obtain ⟨entry, hentry, rfl⟩ := List.mem_map.mp hpart
  exact spelled_name_cons (hknown entry hentry) (trails_sql_cons rfl (spelled_assignment (hknown entry hentry) entry.2))

/-! ### Statements -/

theorem spelled_readColumn {source : Option String} (hsource : ∀ name ∈ source, table.Knows name) {name : String} (h : table.Knows name) :
    Spelled table.Knows numbers (readColumn table source name) := by
  have hcast : Begins table.Knows numbers .sign [.sql "::text AS ", .name name] :=
    begins_sql_cons rfl rfl (spelled_name h)
  have hnumeric : Spelled table.Knows numbers [.name name, .sql "::text AS ", .name name] :=
    spelled_name_cons_of_begins (by decide) h hcast
  cases source with
  | none =>
    rw [readColumn]
    split
    · exact hnumeric
    · exact spelled_name h
  | some source =>
    have hqualified {rest : Pieces} (hrest : Spelled table.Knows numbers rest) :
        Spelled table.Knows numbers (.name source :: .sql "." :: rest) :=
      spelled_name_cons (hsource source rfl) (trails_sql_cons rfl hrest)
    rw [readColumn]
    split
    · exact hqualified hnumeric
    · exact hqualified (spelled_name h)

theorem knows_of_mem_projected {includes : Option NameSet} {name : String} (h : name ∈ projected table includes) : table.Knows name := by
  have hid {names : List String} (hnames : ∀ name ∈ names, table.hasColumn name = true)
      (hname : name ∈ if names.isEmpty then [FieldName.physicalId] else names) : table.Knows name := by
    split at hname
    · rw [List.mem_singleton.mp hname]
      exact .id
    · exact .column (hnames name hname)
  cases includes with
  | none => exact hid (fun name => OrderedMap.contains_eq_true_iff.mpr) h
  | some names => exact hid (fun name hname => (List.mem_filter.mp hname).2) h

theorem spelled_projection (includes : Option NameSet) {source : Option String} (hsource : ∀ name ∈ source, table.Knows name) :
    Spelled table.Knows numbers (projection table includes source) := by
  refine spelled_join isSeparator_comma fun part hpart => ?_
  obtain ⟨name, hname, rfl⟩ := List.mem_map.mp hpart
  exact spelled_readColumn hsource (knows_of_mem_projected hname)

theorem spelled_sortKey {name : String} (h : known name) (order : SortOrder) : Spelled known numbers (sortKey name order) := by
  cases order <;> exact spelled_name_cons h (trails_sql rfl)

theorem trails_orderBy (sort : SortKeys) : Trails table.Knows numbers (orderBy table sort) := by
  rw [orderBy]
  split
  · exact trails_nil
  · refine trails_sql_cons rfl (spelled_join isSeparator_comma fun part hpart => ?_)
    obtain ⟨⟨name, order⟩, hkey, rfl⟩ := List.mem_map.mp hpart
    have hcolumn : table.hasColumn name = true := (List.mem_filter.mp hkey).2
    exact spelled_sortKey (.column hcolumn) order

theorem trails_paging {skip : Nat} {limit : Option Nat} (hskip : skip ∈ numbers) (hlimit : ∀ number ∈ limit, number ∈ numbers) :
    Trails known numbers (paging skip limit) := by
  refine Trails.append ?_ ?_
  · split
    · exact trails_number rfl hskip
    · exact trails_nil
  · cases limit with
    | none => exact trails_nil
    | some number => exact trails_number rfl (hlimit number rfl)

theorem spelled_matching (predicate? : Option Predicate) :
    Spelled table.Knows numbers (.name table.name :: .sql " WHERE " :: Pieces.condition table predicate?) :=
  spelled_name_cons .self (trails_sql_cons rfl (spelled_predicate predicate?))

theorem spelled_target (query : FindOneQuery) : Spelled table.Knows numbers (target table query) := by
  have hmatching : Spelled table.Knows numbers (.name FieldName.physicalId :: .sql " FROM " :: .name table.name :: .sql " WHERE "
      :: Pieces.condition table query.predicate?) :=
    spelled_name_cons .id (trails_sql_cons rfl (spelled_matching query.predicate?))
  have hopening : Spelled table.Knows numbers (.sql "WITH target AS (SELECT " :: .name FieldName.physicalId :: .sql " FROM "
      :: .name table.name :: .sql " WHERE " :: Pieces.condition table query.predicate?) :=
    spelled_sql_cons rfl hmatching
  exact (hopening.append (trails_orderBy query.sort)).append (trails_sql rfl)

theorem spelled_onTarget : Spelled table.Knows numbers onTarget := by
  refine spelled_sql_cons rfl (spelled_name_cons .id (trails_sql_cons rfl ?_))
  exact spelled_name .id

theorem trails_returning {text : String} (h : Sql.isSeparator text = true) (includes : Option NameSet) {source : Option String}
    (hsource : ∀ name ∈ source, table.Knows name) : Trails table.Knows numbers (.sql text :: projection table includes source) :=
  trails_sql_cons h (spelled_projection includes hsource)

theorem spelled_change {assignments : Pieces} (h : Spelled table.Knows numbers assignments) :
    Spelled table.Knows numbers ([.sql "UPDATE ", .name table.name, .sql " AS affected SET "] ++ assignments ++ .sql " FROM " :: onTarget) := by
  refine Spelled.separated ?_ rfl spelled_onTarget
  exact spelled_sql_cons rfl (spelled_name_cons .self (trails_sql_cons rfl h))

namespace Statement

/-- The statements about a table, with the numbers that are written into them. -/
inductive Built (table : Table) : List Nat → Statement → Prop where
  | select (query : FindQuery) : Built table (query.skip :: query.limit.toList) (select table query)
  | count (query : FindQuery) : Built table (query.skip :: query.limit.toList) (count table query)
  | update {query : FindOneQuery} {now : Value} {statement : Statement} (h : update table query now = .ok statement) : Built table [] statement
  | delete (query : FindOneQuery) : Built table [] (delete table query)
  | deleteAll (query : FindQuery) : Built table [] (deleteAll table query)
  | insert (record : Fields) (includes : Option NameSet) : Built table [] (insert table record includes)

theorem trails_pagingOf (query : FindQuery) : Trails known (query.skip :: query.limit.toList) (paging query.skip query.limit) :=
  trails_paging List.mem_cons_self fun _ hlimit => List.mem_cons_of_mem _ (Option.mem_toList.mpr hlimit)

/-- What stands before the page of a selection. -/
theorem spelled_ordered (query : FindQuery) :
    Spelled table.Knows numbers (.sql "SELECT " :: projection table query.includes none ++ [.sql " FROM ", .name table.name, .sql " WHERE "]
      ++ condition table query.predicate? ++ orderBy table query.sort) := by
  have hread : Spelled table.Knows numbers (.sql "SELECT " :: projection table query.includes none) :=
    spelled_sql_cons rfl (spelled_projection query.includes (by simp))
  have hmatching : Trails table.Knows numbers
      (.sql " FROM " :: .name table.name :: .sql " WHERE " :: Pieces.condition table query.predicate?) :=
    trails_sql_cons rfl (spelled_matching query.predicate?)
  have hpieces := (hread.append hmatching).append (trails_orderBy query.sort)
  simpa only [List.append_assoc, List.cons_append, List.nil_append] using hpieces

theorem worded_select (query : FindQuery) :
    ∃ lexemes, Sql.Worded table.Knows (query.skip :: query.limit.toList) (select table query) lexemes :=
  ((spelled_ordered query).append (trails_pagingOf query)).worded

theorem worded_count (query : FindQuery) :
    ∃ lexemes, Sql.Worded table.Knows (query.skip :: query.limit.toList) (count table query) lexemes := by
  have hmatching : Spelled table.Knows (query.skip :: query.limit.toList)
      (.sql "SELECT COUNT(*) FROM (SELECT 1 FROM " :: .name table.name :: .sql " WHERE " :: Pieces.condition table query.predicate?) :=
    spelled_sql_cons rfl (spelled_matching query.predicate?)
  exact ((hmatching.append (trails_pagingOf query)).append (trails_sql rfl)).worded

theorem worded_update {query : FindOneQuery} {now : Value} {statement : Statement} (h : update table query now = .ok statement) :
    ∃ lexemes, Sql.Worded table.Knows [] statement lexemes := by
  obtain ⟨assignments, hassignments, hstatement⟩ := Outcome.bind_eq_ok_iff.mp h
  cases hstatement
  have hchange : Spelled table.Knows [] _ := spelled_change (spelled_assignments hassignments)
  refine ((spelled_target query).append ?_).worded
  cases query.returning with
  | after =>
    exact (trails_sql_cons rfl hchange).append (trails_returning rfl query.includes (by simp [Table.Knows.affected]))
  | before =>
    have hprevious : Trails table.Knows [] (.sql ", previous AS (SELECT " :: .name table.name :: .sql ".* FROM " :: .name table.name
        :: .sql " JOIN target USING (" :: .name FieldName.physicalId :: .sql ")), updated AS (" :: _) :=
      trails_sql_cons rfl <| spelled_name_cons .self <| trails_sql_cons rfl <| spelled_name_cons .self <|
        trails_sql_cons rfl <| spelled_name_cons .id <| trails_sql_cons rfl hchange
    have hreturned : Trails table.Knows [] (.sql ") SELECT " :: projection table query.includes none) :=
      trails_returning rfl query.includes (by simp)
    exact (hprevious.append hreturned).append (trails_sql rfl)

theorem worded_delete (query : FindOneQuery) : ∃ lexemes, Sql.Worded table.Knows [] (delete table query) lexemes := by
  have hdelete : Trails table.Knows [] (.sql " DELETE FROM " :: .name table.name :: .sql " AS affected USING " :: onTarget) :=
    trails_sql_cons rfl (spelled_name_cons .self (trails_sql_cons rfl spelled_onTarget))
  have hreturned : Trails table.Knows [] (.sql " RETURNING " :: projection table query.includes (some "affected")) :=
    trails_returning rfl query.includes (by simp [Table.Knows.affected])
  have hpieces := ((spelled_target query).append hdelete).append hreturned
  refine Spelled.worded ?_
  simpa only [List.append_assoc, List.cons_append, List.nil_append] using hpieces

theorem worded_deleteAll (query : FindQuery) : ∃ lexemes, Sql.Worded table.Knows [] (deleteAll table query) lexemes :=
  (spelled_sql_cons rfl (spelled_matching query.predicate?)).worded

theorem worded_insert (record : Fields) (includes : Option NameSet) :
    ∃ lexemes, Sql.Worded table.Knows [] (insert table record includes) lexemes := by
  have hcolumns : Spelled table.Knows [] (join ", " ((insertedFields table record).map fun field => [.name field.1])) := by
    refine spelled_join isSeparator_comma fun part hpart => ?_
    obtain ⟨field, hfield, rfl⟩ := List.mem_map.mp hpart
    have hcolumn := (Bool.and_eq_true_iff.mp (List.mem_filter.mp hfield).2).2
    exact spelled_name (.column hcolumn)
  have hvalues : Spelled table.Knows [] (join ", " ((insertedFields table record).map fun field => [.value field.2])) := by
    refine spelled_join isSeparator_comma fun part hpart => ?_
    obtain ⟨field, -, rfl⟩ := List.mem_map.mp hpart
    exact spelled_value field.2
  have hopening : Spelled table.Knows [] (.sql "INSERT INTO " :: .name table.name :: .sql " ("
      :: join ", " ((insertedFields table record).map fun field => [.name field.1])) :=
    spelled_sql_cons rfl (spelled_name_cons .self (trails_sql_cons rfl hcolumns))
  have hlisted := hopening.append (trails_sql_cons (rfl : Sql.isSeparator ") VALUES (" = true) hvalues)
  exact (hlisted.append (trails_returning rfl includes (by simp))).worded

/-- A table whose names look like parts of a statement. -/
def hostile : Table where
  name := "rows\" WHERE $1"
  columns := [(FieldName.physicalId, .text), ("'", .text), ("\"; -- $2", .jsonb), (FieldName.physicalUpdatedAt, .text)]

def hostileChange : FindOneQuery where
  className := "rows\" WHERE $1"
  filters := [.compare .equal (.key "'") (.literal (.string "' OR \"$1\" = \\"))]
  sort := [("\"; -- $2", .descending)]
  includes := some ["\"; -- $2"]
  returning := .before
  update := [("\"; -- $2", .push (.string "\\'\""))]

end Statement

end Relational

end ObjectStore
