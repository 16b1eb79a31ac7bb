import ObjectStore.Proofs.Text.Numeral
import ObjectStore.Relational.Statement

/-!
# Tokens of statements

How a server cuts a text into words, signs, names, literals and placeholders. A quote inside a quoted name or literal is doubled, and a token ends where the next character cannot belong to it.

The main statement is about two texts that are each cut into tokens on their own: written one after the other they give the tokens of both, as long as a blank or a bracket stands where they meet.
-/

namespace ObjectStore

namespace Relational

namespace Sql

inductive Token where
  | opening | closing | comma
  | word (text : String)
  | sign (text : String)
  /-- A name between double quotes. -/
  | name (name : String)
  /-- A text between single quotes. -/
  | literal (text : String)
  | placeholder (number : Nat)
deriving DecidableEq

/-- The token at the end of what was read so far, which the next character may continue. -/
inductive Pending where
  | nothing
  | single (token : Token)
  | word (read : List Char)
  | sign (read : List Char)
  | placeholder (number : Nat)
  | name (read : List Char)
  /-- A name up to a quote that ends it, unless the next character is a quote too. -/
  | nameEnd (read : List Char)
  | literal (read : List Char)
  | literalEnd (read : List Char)

def isWordChar (c : Char) : Bool := c.isAlphanum || c == '_'

def isSignChar (c : Char) : Bool := ['=', '<', '>', '@', ':'].contains c

namespace Pending

/-- The pending token with one more character, if that can belong to it. -/
def extend : Pending → Char → Option Pending
  | nothing, _ | single _, _ => none
  | word read, c => if isWordChar c then some (word (read ++ [c])) else none
  | sign read, c => if isSignChar c then some (sign (read ++ [c])) else none
  | placeholder number, c => if c.isDigit then some (placeholder (10 * number + Numeral.digit c)) else none
  | name read, c => some (if c = '"' then nameEnd read else name (read ++ [c]))
  | nameEnd read, c => if c = '"' then some (name (read ++ [c])) else none
  | literal read, c => some (if c = '\'' then literalEnd read else literal (read ++ [c]))
  | literalEnd read, c => if c = '\'' then some (literal (read ++ [c])) else none

/-- The token that a character begins, if it can begin one. -/
def start (c : Char) : Option Pending :=
  if c = ' ' then some nothing
  else if c = '(' then some (single .opening)
  else if c = ')' then some (single .closing)
  else if c = ',' then some (single .comma)
  else if c = '"' then some (name [])
  else if c = '\'' then some (literal [])
  else if c = '$' then some (placeholder 0)
  else if isWordChar c then some (word [c])
  else if isSignChar c then some (sign [c])
  else none

/-- The pending token as a whole one; a quote must have been closed. -/
def finish : Pending → Option (List Token)
  | nothing => some []
  | single token => some [token]
  | word read => some [.word (String.ofList read)]
  | sign read => some [.sign (String.ofList read)]
  | placeholder number => some [.placeholder number]
  | nameEnd read => some [.name (String.ofList read)]
  | literalEnd read => some [.literal (String.ofList read)]
  | name _ | literal _ => none

end Pending

/-- The tokens that are complete after some characters, and the one that is pending. -/
def feed : Pending → List Char → Option (List Token × Pending)
  | pending, [] => some ([], pending)
  | pending, c :: rest =>
    match pending.extend c with
    | some longer => feed longer rest
    | none => do
      let complete ← pending.finish
      let (tokens, last) ← feed (← Pending.start c) rest
      some (complete ++ tokens, last)

/-- The tokens of a text. -/
def lex (text : List Char) : Option (List Token) := do
  let (tokens, last) ← feed .nothing text
  return tokens ++ (← last.finish)

/-- A character that belongs to no token but those that it is by itself. -/
def isBreak (c : Char) : Bool := [' ', '(', ')', ','].contains c

theorem feed_start {c : Char} {next : Pending} (hstart : Pending.start c = some next) (rest : List Char) :
    feed .nothing (c :: rest) = feed next rest := by
  have hnothing : Pending.nothing.extend c = none := rfl
  rw [feed]
  simp only [hnothing, hstart, Pending.finish, Option.bind_eq_bind, Option.bind_some, List.nil_append]
  cases feed next rest <;> rfl

theorem feed_append (pending : Pending) (front rest : List Char) :
    feed pending (front ++ rest) = (feed pending front).bind fun read =>
      (feed read.2 rest).map fun more => (read.1 ++ more.1, more.2) := by
  induction front generalizing pending with
  | nil => cases h : feed pending rest <;> simp [feed, h]
  | cons c front ih =>
    simp only [List.cons_append, feed]
    cases pending.extend c with
    | some longer => exact ih longer
    | none =>
      cases pending.finish with
      | none => rfl
      | some complete =>
        cases Pending.start c with
        | none => rfl
        | some next =>
          simp only [Option.bind_eq_bind, Option.bind_some, ih]
          cases feed next front with
          | none => rfl
          | some read =>
            cases h : feed read.2 rest <;> simp [h]

/-- A break continues no token that may end there. -/
theorem extend_break {pending : Pending} {tokens : List Token} {c : Char} (hfinish : pending.finish = some tokens)
    (hbreak : isBreak c = true) : pending.extend c = none := by
  have hc : c = ' ' ∨ c = '(' ∨ c = ')' ∨ c = ',' := by simpa [isBreak] using hbreak
  cases pending with
  | name read => simp [Pending.finish] at hfinish
  | literal read => simp [Pending.finish] at hfinish
  | _ => rcases hc with rfl | rfl | rfl | rfl <;> rfl

/-- A token that may end and that nothing extends hands over to the next text. -/
theorem feed_of_extend_eq_none {pending : Pending} {complete : List Token} {c : Char} {rest : List Char}
    (hfinish : pending.finish = some complete) (hextend : pending.extend c = none) :
    feed pending (c :: rest) = (feed .nothing (c :: rest)).map fun read => (complete ++ read.1, read.2) := by
  have hnothing : Pending.nothing.extend c = none := rfl
  have hempty : Pending.nothing.finish = some [] := rfl
  rw [feed, feed]
  simp only [hextend, hfinish, hnothing, hempty, Option.bind_eq_bind, Option.bind_some, List.nil_append]
  cases Pending.start c with
  | none => rfl
  | some next => cases h : feed next rest <;> simp [h]

theorem lex_eq_some_iff {text : List Char} {tokens : List Token} :
    lex text = some tokens ↔ ∃ front last tail, feed .nothing text = some (front, last) ∧ last.finish = some tail ∧
      tokens = front ++ tail := by
  cases h : feed .nothing text with
  | none => simp [lex, h]
  | some read =>
    obtain ⟨front, last⟩ := read
    simp only [lex, h, Option.bind_eq_bind, Option.bind_some, Option.some.injEq, Prod.mk.injEq]
    cases hlast : last.finish with
    | none =>
      simp only [Option.bind_none, reduceCtorEq, false_iff]
      rintro ⟨_, _, tail, ⟨rfl, rfl⟩, htail, -⟩
      rw [hlast] at htail
      cases htail
    | some tail =>
      constructor
      · intro same
        exact ⟨front, last, tail, ⟨rfl, rfl⟩, hlast, (Option.some.inj same).symm⟩
      · rintro ⟨_, _, tail', ⟨rfl, rfl⟩, htail, rfl⟩
        rw [hlast] at htail
        cases htail
        rfl

theorem feed_break {pending : Pending} {front : List Char} {c : Char} {tokens : List Token} {last : Pending}
    {tail : List Token} (hfeed : feed pending (front ++ [c]) = some (tokens, last)) (hbreak : isBreak c = true)
    (hlast : last.finish = some tail) (d : Char) : last.extend d = none := by
  rw [feed_append] at hfeed
  cases hfront : feed pending front with
  | none => simp [hfront] at hfeed
  | some read =>
    have hc : c = ' ' ∨ c = '(' ∨ c = ')' ∨ c = ',' := by simpa [isBreak] using hbreak
    simp only [hfront, Option.bind_some, feed] at hfeed
    cases hextend : read.2.extend c with
    | none =>
      rw [hextend] at hfeed
      rcases hc with rfl | rfl | rfl | rfl <;> cases hfinish : read.2.finish <;>
        simp [hfinish, Pending.start] at hfeed <;> (obtain ⟨-, rfl⟩ := hfeed; rfl)
    | some longer =>
      -- only inside quotes does a break belong to a longer token, and there nothing may end
      rw [hextend] at hfeed
      simp only [Option.map_some, Option.some.injEq, Prod.mk.injEq] at hfeed
      obtain ⟨-, rfl⟩ := hfeed
      cases hread : read.2 <;> rw [hread] at hextend <;>
        rcases hc with rfl | rfl | rfl | rfl <;> simp [Pending.extend, isWordChar, isSignChar] at hextend <;>
        (subst hextend; simp [Pending.finish] at hlast)

/-- Whether two texts meet at a break. -/
def meetsAtBreak (front rest : List Char) : Bool := front.getLast?.any isBreak || rest.head?.any isBreak

/-- Two texts that meet at a break keep their tokens when one is written after the other. -/
theorem lex_append {front rest : List Char} {first second : List Token} (hfront : lex front = some first)
    (hrest : lex rest = some second) (hmeet : meetsAtBreak front rest = true) :
    lex (front ++ rest) = some (first ++ second) := by
  obtain ⟨read, last, tail, hread, htail, rfl⟩ := lex_eq_some_iff.mp hfront
  obtain ⟨more, final, finalTail, hmore, hfinal, rfl⟩ := lex_eq_some_iff.mp hrest
  cases rest with
  | nil =>
    cases hmore
    cases hfinal
    simpa using hfront
  | cons c rest =>
    have hextend : last.extend c = none := by
      simp only [meetsAtBreak, List.head?_cons, Option.any_some, Bool.or_eq_true] at hmeet
      rcases hmeet with hmeet | hmeet
      · cases hlast : front.getLast? with
        | none => simp [hlast] at hmeet
        | some b =>
          obtain ⟨init, rfl⟩ := List.getLast?_eq_some_iff.mp hlast
          exact feed_break hread (by simpa using hmeet) htail c
      · exact extend_break htail hmeet
    refine lex_eq_some_iff.mpr ⟨read ++ (tail ++ more), final, finalTail, ?_, hfinal, by simp⟩
    rw [feed_append, hread, Option.bind_some, feed_of_extend_eq_none htail hextend, hmore]
    rfl

/-! ### Names and placeholders -/

theorem feed_name (read name : List Char) :
    feed (.name read) (name.flatMap (fun c => if c = '"' then ['"', '"'] else [c]) ++ ['"']) =
      some ([], .nameEnd (read ++ name)) := by
  induction name generalizing read with
  | nil => simp [feed, Pending.extend]
  | cons c name ih =>
    by_cases quote : c = '"'
    · subst quote
      have step := ih (read ++ ['"'])
      simp only [List.append_assoc, List.singleton_append] at step
      simpa [feed, Pending.extend] using step
    · have step := ih (read ++ [c])
      simp only [List.append_assoc, List.singleton_append] at step
      simpa [feed, Pending.extend, quote] using step

theorem toList_quoteName (name : String) :
    (quoteName name).toList = '"' :: (name.toList.flatMap (fun c => if c = '"' then ['"', '"'] else [c]) ++ ['"']) := by
  have body : (String.join (name.toList.map fun c => if c = '"' then "\"\"" else String.singleton c)).toList =
      name.toList.flatMap fun c => if c = '"' then ['"', '"'] else [c] := by
    rw [String.toList_join, List.flatMap_map]
    congr 1
    funext c
    split
    · rfl
    · exact String.toList_singleton c
  rw [quoteName, String.toList_append, String.toList_append, body]
  rfl

theorem lex_quoteName (name : String) : lex (quoteName name).toList = some [.name name] := by
  have inside := feed_name [] name.toList
  rw [lex_eq_some_iff]
  refine ⟨[], .nameEnd name.toList, [.name name], ?_, by simp only [Pending.finish, String.ofList_toList], rfl⟩
  rw [toList_quoteName, feed_start (show Pending.start '"' = some (.name []) from rfl), inside]
  rfl

theorem feed_digits (number : Nat) {digits : List Char} (hdigits : ∀ c ∈ digits, c.isDigit = true) (rest : List Char) :
    feed (.placeholder number) (digits ++ rest) = feed (.placeholder (Numeral.accumulate number digits)) rest := by
  induction digits generalizing number with
  | nil => rfl
  | cons c digits ih =>
    have hc : c.isDigit = true := hdigits c List.mem_cons_self
    rw [List.cons_append, feed]
    simp only [Pending.extend, hc, if_true]
    exact ih _ fun d hd => hdigits d (List.mem_cons_of_mem _ hd)

theorem lex_placeholder (number : Nat) (cast : String) {tokens : List Token}
    (hcast : lex ("::" ++ cast).toList = some tokens) :
    lex ("$" ++ toString number ++ "::" ++ cast).toList = some (.placeholder number :: tokens) := by
  obtain ⟨front, last, tail, hfeed, htail, rfl⟩ := lex_eq_some_iff.mp hcast
  have hplaceholder : feed (.placeholder number) ("::" ++ cast).toList = some (.placeholder number :: front, last) := by
    rw [String.toList_append] at hfeed ⊢
    rw [show "::".toList = [':', ':'] from rfl, List.cons_append] at hfeed ⊢
    have hcolon : (Pending.placeholder number).extend ':' = none := rfl
    rw [feed_of_extend_eq_none rfl hcolon, hfeed]
    rfl
  rw [lex_eq_some_iff]
  refine ⟨.placeholder number :: front, last, tail, ?_, htail, rfl⟩
  rw [String.append_assoc, String.toList_append, String.toList_append, Numeral.toList_toString, List.append_assoc]
  rw [show "$".toList = ['$'] from rfl, List.singleton_append, feed_start rfl]
  rw [feed_digits 0 fun c => Numeral.isDigit_of_mem_digits, Numeral.accumulate_digits, hplaceholder]

end Sql

end Relational

end ObjectStore
