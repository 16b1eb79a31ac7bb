import ObjectStore.Documents.Filter
import ObjectStore.Proofs.Predicate.TextPattern

/-!
# What regular expressions find

How a server without options reads the regular expressions that filters search for: a backslash makes the punctuation behind it stand for itself, a caret holds at the front of a string only, and a dollar sign holds at its end and also in front of a line break that ends it. All other signs with a meaning are left out, and an expression that has one is not read.

An escaped text is read as the text, so the expressions of text tests find exactly what the tests find, but for the line break: a text at the end of a string is also found in front of one.
-/

namespace ObjectStore

namespace Documents

namespace Regex

/-- What an expression asks for at one place. -/
inductive Part where
  | char (c : Char)
  /-- The front of the string. -/
  | front
  /-- The end of the string, or the line break that ends it. -/
  | back
deriving DecidableEq

/-- The signs that have a meaning by themselves. -/
def signs : List Char := ['\\', '^', '$', '.', '[', '|', '(', ')', '?', '*', '+', '\x7b']

/-- The signs that a backslash makes stand for themselves. Before letters and digits it has other meanings. -/
def isPunctuation (c : Char) : Bool := ' ' < c && c < '\x7f' && !c.isAlphanum

def read : List Char → Option (List Part)
  | [] => some []
  | '^' :: rest => (read rest).map (.front :: ·)
  | '$' :: rest => (read rest).map (.back :: ·)
  | '\\' :: c :: rest => if isPunctuation c then (read rest).map (.char c :: ·) else none
  | c :: rest => if c ∈ signs then none else (read rest).map (.char c :: ·)

/-- Whether the parts match at a place of a string, which has some characters before it and some behind. -/
def matchesAt : List Part → List Char → List Char → Bool
  | [], _, _ => true
  | .char c :: parts, before, d :: rest => c == d && matchesAt parts (before ++ [d]) rest
  | .char _ :: _, _, [] => false
  | .front :: parts, before, rest => before.isEmpty && matchesAt parts before rest
  | .back :: parts, before, rest => (rest.isEmpty || rest == ['\n']) && matchesAt parts before rest

/-- The parts match somewhere in a string. -/
def Finds (parts : List Part) (string : String) : Prop :=
  ∃ before rest, string.toList = before ++ rest ∧ matchesAt parts before rest = true

/-! ### Escaped texts -/

/-- A character as an expression for itself. -/
def escapeChar (c : Char) : List Char := if regexSigns.contains c then ['\\', c] else [c]

theorem toList_escapeRegex (text : String) : (escapeRegex text).toList = text.toList.flatMap escapeChar := by
  simp only [escapeRegex, String.toList_ofList]
  rfl

theorem isPunctuation_of_mem {c : Char} (h : c ∈ regexSigns) : isPunctuation c = true := by
  have hall : regexSigns.all isPunctuation = true := by
    decide
  exact List.all_eq_true.mp hall c h

theorem mem_regexSigns_of_mem {c : Char} (h : c ∈ signs) : c ∈ regexSigns := by
  have hall : signs.all regexSigns.contains = true := by
    decide
  exact List.contains_iff_mem.mp (List.all_eq_true.mp hall c h)

theorem read_escapeChar (c : Char) (rest : List Char) : read (escapeChar c ++ rest) = (read rest).map (.char c :: ·) := by
  unfold escapeChar
  split
  · next hsign =>
    rw [List.cons_append, List.singleton_append, read, if_pos (isPunctuation_of_mem (List.contains_iff_mem.mp hsign))]
  · next hplain =>
    have hsigns : c ∉ signs := fun hc => hplain (List.contains_iff_mem.mpr (mem_regexSigns_of_mem hc))
    have hne (sign : Char) (hsign : sign ∈ signs) : c ≠ sign := fun same => hsigns (same ▸ hsign)
    rw [List.singleton_append, read, if_neg hsigns]
    · exact hne '^' (by decide)
    · exact hne '$' (by decide)
    · exact fun _ _ same _ => hne '\\' (by decide) same

/-- An escaped text is read as its characters, whatever comes behind it. -/
theorem read_escaped (text rest : List Char) :
    read (text.flatMap escapeChar ++ rest) = (read rest).map (text.map .char ++ ·) := by
  induction text with
  | nil => simp
  | cons c text ih =>
    rw [List.flatMap_cons, List.append_assoc, read_escapeChar, ih, Option.map_map]
    rfl

/-- The parts of the expression for a text test. -/
def partsOf (kind : TextPattern) (text : List Char) : List Part :=
  match kind with
  | .startsWith => .front :: text.map .char
  | .endsWith => text.map .char ++ [.back]
  | .contains => text.map .char

theorem read_regexOf (kind : TextPattern) (text : String) : read (regexOf kind text).toList = some (partsOf kind text.toList) := by
  have hwhole : read (text.toList.flatMap escapeChar) = some (text.toList.map .char) := by
    simpa [read] using read_escaped text.toList []
  cases kind with
  | startsWith =>
    rw [regexOf, String.toList_append, toList_escapeRegex, show "^".toList = ['^'] from rfl, List.singleton_append, read, hwhole]
    rfl
  | endsWith =>
    rw [regexOf, String.toList_append, toList_escapeRegex, read_escaped]
    rfl
  | contains => rw [regexOf, toList_escapeRegex, hwhole, partsOf]

/-! ### Where they match -/

theorem matchesAt_chars (text : List Char) (parts : List Part) (before rest : List Char) :
    matchesAt (text.map .char ++ parts) before rest = true ↔
      ∃ tail, rest = text ++ tail ∧ matchesAt parts (before ++ text) tail = true := by
  induction text generalizing before rest with
  | nil => simp
  | cons c text ih =>
    cases rest with
    | nil => simp [matchesAt]
    | cons d rest =>
      simp only [List.map_cons, List.cons_append, matchesAt, Bool.and_eq_true, beq_iff_eq, ih, List.append_assoc,
        List.cons.injEq]
      constructor
      · rintro ⟨rfl, tail, rfl, h⟩
        exact ⟨tail, ⟨rfl, rfl⟩, h⟩
      · rintro ⟨tail, ⟨rfl, rfl⟩, h⟩
        exact ⟨rfl, tail, rfl, h⟩

theorem matchesAt_text (text before rest : List Char) : matchesAt (text.map .char) before rest = true ↔ text <+: rest := by
  rw [← List.append_nil (text.map Part.char), matchesAt_chars]
  simp only [matchesAt, and_true]
  exact exists_congr fun _ => eq_comm

/-- Whether a text stands right in front of the line break that ends a string. -/
def BeforeLineBreak (text string : String) : Prop := text.toList ++ ['\n'] <:+ string.toList

theorem finds_partsOf (kind : TextPattern) (text string : String) :
    Finds (partsOf kind text.toList) string ↔ kind.Finds text string ∨ kind = .endsWith ∧ BeforeLineBreak text string := by
  cases kind with
  | startsWith =>
    simp only [Finds, partsOf, matchesAt, Bool.and_eq_true, List.isEmpty_iff, matchesAt_text, reduceCtorEq, false_and, or_false]
    constructor
    · rintro ⟨before, rest, split, rfl, h⟩
      rwa [TextPattern.Finds, split]
    · exact fun h => ⟨[], string.toList, rfl, rfl, h⟩
  | endsWith =>
    simp only [Finds, partsOf, matchesAt_chars, matchesAt, Bool.and_true, Bool.or_eq_true, List.isEmpty_iff, beq_iff_eq, true_and]
    constructor
    · rintro ⟨before, _, split, tail, rfl, rfl | rfl⟩
      · exact Or.inl ⟨before, by rw [split, List.append_nil]⟩
      · exact Or.inr ⟨before, split.symm⟩
    · rintro (⟨before, split⟩ | ⟨before, split⟩)
      · exact ⟨before, text.toList, split.symm, [], (List.append_nil _).symm, Or.inl rfl⟩
      · exact ⟨before, _, split.symm, ['\n'], rfl, Or.inr rfl⟩
  | contains =>
    simp only [Finds, partsOf, matchesAt_text, reduceCtorEq, false_and, or_false]
    constructor
    · rintro ⟨before, _, split, tail, rfl⟩
      exact ⟨before, tail, by rw [split, List.append_assoc]⟩
    · rintro ⟨before, tail, split⟩
      exact ⟨before, _, by rw [← split, List.append_assoc], tail, rfl⟩

end Regex

/-- The filter of a text test searches one field for an expression that the server reads, and the expression finds a match in exactly the strings that pass the test and, where the text has to stand at the end, in those that have it in front of a last line break. -/
theorem searches_find (kind : TextPattern) (key text : String) :
    ∃ filter regex parts, Filter.ofPredicate (.pattern kind key text) = .ok filter ∧
      filter.document = [(Percent.escape key, .document [("$regex", .string regex)])] ∧ Regex.read regex.toList = some parts ∧
      ∀ (record : Fields) (string : String), OrderedMap.get? record key = some (.string string) →
        (Regex.Finds parts string ↔ (Predicate.pattern kind key text).holds record = true ∨
          kind = .endsWith ∧ Regex.BeforeLineBreak text string) := by
  refine ⟨_, regexOf kind text, _, rfl, rfl, Regex.read_regexOf kind text, ?_⟩
  intro record string hfield
  have hholds : (Predicate.pattern kind key text).holds record = kind.holds string text := by
    simp only [Predicate.holds, Predicate.patternHolds, hfield]
  rw [Regex.finds_partsOf, hholds, TextPattern.holds_iff_finds]

theorem price_found :
    let predicate := Predicate.pattern .endsWith "note" "(a.b)*$"
    OrderedMap.get? [("note", Value.string "now (a.b)*$")] "note" = some (.string "now (a.b)*$") ∧
    ∃ filter parts, Filter.ofPredicate predicate = .ok filter ∧ filter.document =
        [("note", .document [("$regex", .string "\\(a\\.b\\)\\*\\$$")])] ∧
      Regex.read "\\(a\\.b\\)\\*\\$$".toList = some parts ∧ Regex.Finds parts "now (a.b)*$" := by
  intro predicate
  have hfield : OrderedMap.get? [("note", Value.string "now (a.b)*$")] "note" = some (.string "now (a.b)*$") := rfl
  obtain ⟨filter, regex, parts, hfilter, hdocument, hread, hfinds⟩ := searches_find .endsWith "note" "(a.b)*$"
  have hholds : predicate.holds [("note", .string "now (a.b)*$")] = true := rfl
  obtain rfl := Except.ok.inj hfilter
  obtain rfl : regexOf .endsWith "(a.b)*$" = regex := by
    cases hdocument
    rfl
  exact ⟨hfield, _, parts, rfl, rfl, hread, (hfinds _ _ hfield).mpr (Or.inl hholds)⟩

/-- A line break at the end of a string is passed over. -/
theorem line_break_passed_over :
    let predicate := Predicate.pattern .endsWith "s" "a"
    ∃ filter parts, Filter.ofPredicate predicate = .ok filter ∧ filter.document = [("s", .document [("$regex", .string "a$")])] ∧
      Regex.read "a$".toList = some parts ∧ Regex.Finds parts "a\n" ∧ predicate.holds [("s", .string "a\n")] = false :=
  ⟨_, _, rfl, rfl, rfl, ⟨[], ['a', '\n'], rfl, rfl⟩, rfl⟩

end Documents

end ObjectStore
