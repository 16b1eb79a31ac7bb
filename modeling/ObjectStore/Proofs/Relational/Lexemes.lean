import Mathlib.Data.List.SplitBy
import ObjectStore.Proofs.Relational.Lexer

/-!
# Lexemes of statements

How whole statements are cut up, with all the operators that the tokens of conditions do not need. First everything between quotes is taken out, where a quote inside is doubled. What is left is put together to words and to operators, each as long as it can be. Two texts that are written one after the other give the lexemes of both, unless they meet in two quotes, inside a word or inside an operator.
-/

namespace ObjectStore

namespace Relational

namespace Sql

/-- What a character can run together with. -/
inductive Edge where
  | free | word | sign | quote
deriving DecidableEq

def edge (c : Char) : Edge :=
  if c.isAlphanum || c == '_' || c == '$' || 128 ≤ c.toNat then .word
  else if c == '"' || c == '\'' then .quote
  else if ['+', '-', '*', '/', '<', '>', '=', '~', '!', '@', '#', '%', '^', '&', '|', '?', ':'].contains c then .sign
  else .free

/-- A character that stands for itself, or what stands between two quotes. -/
inductive Glyph where
  | char (c : Char)
  | quoted (quote : Char) (text : List Char)
deriving DecidableEq

inductive Lexeme where
  | word (text : String)
  /-- An operator, or a bracket, a comma or a period by itself. -/
  | sign (text : String)
  | name (name : String)
  | literal (text : String)
deriving DecidableEq

/-! ### Quotes -/

/-- How far a text is read. -/
inductive Reading where
  | outside
  | inside (quote : Char) (read : List Char)
  /-- Behind a quote that ends what it encloses, unless it is doubled. -/
  | closing (quote : Char) (read : List Char)

namespace Reading

/-- The glyphs that a character completes, and how the reading goes on. -/
def next : Reading → Char → List Glyph × Reading
  | outside, c => if edge c = .quote then ([], inside c []) else ([.char c], outside)
  | inside quote read, c => ([], if c = quote then closing quote read else inside quote (read ++ [c]))
  | closing quote read, c =>
    if c = quote then ([], inside quote (read ++ [c]))
    else if edge c = .quote then ([.quoted quote read], inside c [])
    else ([.quoted quote read, .char c], outside)

def run : Reading → List Char → List Glyph × Reading
  | reading, [] => ([], reading)
  | reading, c :: rest =>
    let more := (reading.next c).2.run rest
    ((reading.next c).1 ++ more.1, more.2)

/-- What is complete at the end of a text; a quote must have been closed. -/
def finish : Reading → Option (List Glyph)
  | outside => some []
  | inside _ _ => none
  | closing quote read => some [.quoted quote read]

end Reading

/-- The glyphs of a text. -/
def glyphs (text : List Char) : Option (List Glyph) :=
  (Reading.outside.run text).2.finish.map ((Reading.outside.run text).1 ++ ·)

namespace Glyph

def edge : Glyph → Edge
  | char c => Sql.edge c
  | quoted _ _ => .quote

/-- Whether two glyphs would not be told apart. -/
def touches (first second : Glyph) : Bool := first.edge != .free && first.edge == second.edge

/-- Whether two glyphs are of one word or one operator. -/
def joins : Glyph → Glyph → Bool
  | char c, char d => (char c).touches (char d)
  | _, _ => false

def char? : Glyph → Option Char
  | char c => some c
  | quoted _ _ => none

end Glyph

/-- The lexeme of a group of glyphs; a blank is none. -/
def lexeme? : List Glyph → Option Lexeme
  | [] => none
  | .quoted quote text :: _ => some (if quote = '"' then .name (String.ofList text) else .literal (String.ofList text))
  | .char c :: rest =>
    if edge c = .word then some (.word (String.ofList (c :: rest.filterMap Glyph.char?)))
    else if c.isWhitespace then none
    else some (.sign (String.ofList (c :: rest.filterMap Glyph.char?)))

def lexemes (glyphs : List Glyph) : List Lexeme := (glyphs.splitBy Glyph.joins).filterMap lexeme?

/-- The lexemes of a text. -/
def scan (text : List Char) : Option (List Lexeme) := (glyphs text).map lexemes

example : scan "\"a\"\" = $1\" || $1::text".toList =
    some [.name "a\" = $1", .sign "||", .word "$1", .sign "::", .word "text"] := by decide +kernel

namespace Reading

theorem run_append (reading : Reading) (front rest : List Char) :
    reading.run (front ++ rest) =
      ((reading.run front).1 ++ ((reading.run front).2.run rest).1, ((reading.run front).2.run rest).2) := by
  induction front generalizing reading with
  | nil => rfl
  | cons c front ih => simp [run, ih]

/-- The quote that encloses what is read, if anything does. -/
def quote? : Reading → Option Char
  | outside => none
  | inside quote _ | closing quote _ => some quote

theorem edge_next {reading : Reading} (h : ∀ quote ∈ reading.quote?, edge quote = .quote) (c : Char) :
    ∀ quote ∈ (reading.next c).2.quote?, edge quote = .quote := by
  cases reading with
  | outside =>
    rw [next]
    split
    · next hc => simpa [quote?] using hc
    · simp [quote?]
  | inside quote read =>
    rw [next]
    dsimp only
    split <;> simpa [quote?] using h
  | closing quote read =>
    rw [next]
    split
    · simpa [quote?] using h
    · split
      · next hc => simpa [quote?] using hc
      · simp [quote?]

theorem edge_run {reading : Reading} (h : ∀ quote ∈ reading.quote?, edge quote = .quote) (text : List Char) :
    ∀ quote ∈ (reading.run text).2.quote?, edge quote = .quote := by
  induction text generalizing reading with
  | nil => exact h
  | cons c rest ih => exact ih (edge_next h c)

theorem run_outside_quote {c : Char} (hc : edge c = .quote) (rest : List Char) :
    outside.run (c :: rest) = (inside c []).run rest := by
  simp [run, next, hc]

theorem run_closing {quote c : Char} (hc : c ≠ quote) (read rest : List Char) :
    (closing quote read).run (c :: rest) =
      (.quoted quote read :: (outside.run (c :: rest)).1, (outside.run (c :: rest)).2) := by
  simp only [run, next, if_neg hc]
  split <;> rfl

/-- What is complete first, if a quote is open, is what it encloses. -/
theorem run_quoted {reading : Reading} {quote : Char} (hquote : reading.quote? = some quote) {text : List Char} {tail : List Glyph}
    (h : (reading.run text).2.finish = some tail) : ∃ read more, (reading.run text).1 ++ tail = .quoted quote read :: more := by
  induction text generalizing reading with
  | nil =>
    cases reading with
    | outside => cases hquote
    | inside _ _ => cases h
    | closing _ read =>
      cases hquote
      cases h
      exact ⟨read, [], rfl⟩
  | cons c rest ih =>
    cases reading with
    | outside => cases hquote
    | inside _ read =>
      cases hquote
      refine ih ?_ h
      dsimp only [next]
      split <;> rfl
    | closing _ read =>
      cases hquote
      by_cases hc : c = quote
      · have hnext : (closing quote read).next c = ([], inside quote (read ++ [c])) := if_pos hc
        rw [run, hnext] at h ⊢
        exact ih rfl h
      · rw [run_closing hc]
        exact ⟨read, _, rfl⟩

end Reading

/-! ### Texts one after the other -/

/-- Two rows of glyphs do not touch where they meet. -/
def Apart (front rest : List Glyph) : Prop := ∀ first ∈ front.getLast?, ∀ second ∈ rest.head?, first.touches second = false

theorem apart_of_edge {front rest : List Glyph} {last first : Edge} (hfront : ∀ glyph ∈ front.getLast?, glyph.edge = last)
    (hrest : ∀ glyph ∈ rest.head?, glyph.edge = first) (h : last = .free ∨ last ≠ first) : Apart front rest := by
  intro glyph hglyph next hnext
  rw [Glyph.touches, hfront glyph hglyph, hrest next hnext]
  rcases h with rfl | hne
  · rfl
  · rw [beq_eq_false_iff_ne.mpr hne, Bool.and_false]

theorem apart_of_free_left {front : List Glyph} (h : ∀ glyph ∈ front.getLast?, glyph.edge = .free) (rest : List Glyph) : Apart front rest := by
  intro glyph hglyph next _
  rw [Glyph.touches, h glyph hglyph]
  rfl

theorem apart_of_free_right (front : List Glyph) {rest : List Glyph} (h : ∀ glyph ∈ rest.head?, glyph.edge = .free) : Apart front rest := by
  intro glyph _ next hnext
  rw [Glyph.touches, h next hnext]
  cases glyph.edge <;> rfl

theorem glyphs_append {front rest : List Char} {first second : List Glyph} (hfront : glyphs front = some first)
    (hrest : glyphs rest = some second) (hapart : Apart first second) : glyphs (front ++ rest) = some (first ++ second) := by
  obtain ⟨tail, htail, rfl⟩ := Option.map_eq_some_iff.mp hfront
  obtain ⟨last, hlast, rfl⟩ := Option.map_eq_some_iff.mp hrest
  rw [glyphs, Reading.run_append]
  have hsound : ∀ quote ∈ (Reading.outside.run front).2.quote?, edge quote = .quote := Reading.edge_run (by simp [Reading.quote?]) front
  generalize Reading.outside.run front = read at *
  obtain ⟨complete, reading⟩ := read
  cases reading with
  | inside _ _ => cases htail
  | outside =>
    cases htail
    simp [hlast]
  | closing quote text =>
    cases htail
    cases rest with
    | nil =>
      cases hlast
      simp [Reading.run, Reading.finish]
    | cons c rest =>
      have hquote : edge quote = .quote := by simpa [Reading.quote?] using hsound
      have hc : c ≠ quote := by
        rintro rfl
        rw [Reading.run_outside_quote hquote] at hlast hapart
        have hopen : (Reading.inside c []).quote? = some c := rfl
        obtain ⟨read, more, hfirst⟩ := Reading.run_quoted hopen hlast
        have htouches := hapart (.quoted c text) (by simp) (.quoted c read) (by simp [hfirst])
        cases htouches
      rw [Reading.run_closing hc]
      simp [hlast]

theorem lexemes_append {first second : List Glyph} (hapart : Apart first second) : lexemes (first ++ second) = lexemes first ++ lexemes second := by
  rw [lexemes, List.splitBy_append, List.filterMap_append]
  · rfl
  · intro last hlast head hhead
    have htouches := hapart last hlast head hhead
    cases last with
    | quoted _ _ => rfl
    | char c =>
      cases head with
      | quoted _ _ => rfl
      | char d => exact htouches

/-! ### Plain texts -/

theorem run_plain {text : List Char} (h : ∀ c ∈ text, edge c ≠ .quote) :
    Reading.outside.run text = (text.map .char, .outside) := by
  induction text with
  | nil => rfl
  | cons c rest ih =>
    obtain ⟨hc, hrest⟩ := List.forall_mem_cons.mp h
    simp [Reading.run, Reading.next, hc, ih hrest]

/-- Outside quotes every character stands for itself. -/
theorem glyphs_plain {text : List Char} (h : ∀ c ∈ text, edge c ≠ .quote) : glyphs text = some (text.map .char) := by
  rw [glyphs, run_plain h]
  simp [Reading.finish]

theorem lexemes_word {c : Char} {rest : List Char} (h : ∀ d ∈ c :: rest, edge d = .word) :
    lexemes ((c :: rest).map .char) = [.word (String.ofList (c :: rest))] := by
  have hchain : List.IsChain (fun first second => Glyph.joins first second = true) ((c :: rest).map .char) := by
    rw [List.isChain_map]
    refine List.Pairwise.isChain (List.pairwise_of_forall_mem_list fun first hfirst second hsecond => ?_)
    simp [Glyph.joins, Glyph.touches, Glyph.edge, h first hfirst, h second hsecond]
  have hchars : (rest.map Glyph.char).filterMap Glyph.char? = rest := by
    rw [List.filterMap_map]
    exact List.filterMap_some
  rw [lexemes, List.splitBy_of_isChain (by simp) hchain]
  simp [lexeme?, h c List.mem_cons_self, hchars]

/-! ### Names -/

/-- The characters between the quotes of a name, up to the quote that ends it. -/
theorem Reading.run_inside (read name : List Char) :
    (Reading.inside '"' read).run (name.flatMap (fun c => if c = '"' then ['"', '"'] else [c]) ++ ['"']) =
      ([], .closing '"' (read ++ name)) := by
  induction name generalizing read with
  | nil => simp [Reading.run, Reading.next]
  | cons c name ih =>
    have step := ih (read ++ [c])
    rw [List.append_assoc, List.singleton_append] at step
    by_cases quote : c = '"'
    · subst quote
      simp [Reading.run, Reading.next, step]
    · simp [Reading.run, Reading.next, quote, step]

theorem glyphs_quoteName (name : String) : glyphs (quoteName name).toList = some [.quoted '"' name.toList] := by
  have hinside := Reading.run_inside [] name.toList
  rw [glyphs, toList_quoteName, Reading.run_outside_quote (by decide), hinside]
  rfl

end Sql

end Relational

end ObjectStore
