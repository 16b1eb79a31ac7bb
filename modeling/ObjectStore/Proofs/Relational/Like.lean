import ObjectStore.Proofs.Predicate.TextPattern
import ObjectStore.Relational.Condition

/-!
# Patterns of text columns

How a server reads the pattern of a `LIKE` whose escape character is the backslash, and that the patterns of this library ask exactly for what the text test asks: a text that was escaped stands for itself wherever it is put.
-/

namespace ObjectStore

namespace Relational

namespace Like

/-- Whether a test passes on a list or on what is left after dropping characters from its front. -/
def someTail (test : List Char → Bool) : List Char → Bool
  | [] => test []
  | c :: rest => test (c :: rest) || someTail test rest

/-- Whether a pattern matches a text: a percent sign stands for any run of characters, an underscore for any one, a backslash makes the next character stand for itself, and no pattern ends in a lone backslash. -/
def accepts : List Char → List Char → Bool
  | [], text => text.isEmpty
  | '%' :: pattern, text => someTail (accepts pattern) text
  | '_' :: pattern, _ :: text => accepts pattern text
  | '\\' :: c :: pattern, d :: text => c == d && accepts pattern text
  | ['\\'], _ => false
  | c :: pattern, d :: text => c == d && accepts pattern text
  | _ :: _, [] => false

/-- A character as a pattern for itself. -/
def escapeChar (c : Char) : List Char := if c = '\\' ∨ c = '%' ∨ c = '_' then ['\\', c] else [c]

theorem toList_escapeLike (text : String) : (escapeLike text).toList = text.toList.flatMap escapeChar := by
  simp only [escapeLike, String.toList_ofList]
  rfl

theorem cons_split_iff (c d : Char) (text : List Char) (holds : List Char → Prop) :
    (∃ rest, d :: text = c :: rest ∧ holds rest) ↔ c = d ∧ holds text := by
  constructor
  · rintro ⟨rest, same, h⟩
    obtain ⟨rfl, rfl⟩ := List.cons.inj same
    exact ⟨rfl, h⟩
  · rintro ⟨rfl, h⟩
    exact ⟨text, rfl, h⟩

theorem accepts_escapeChar (c : Char) (pattern text : List Char) :
    accepts (escapeChar c ++ pattern) text = true ↔ ∃ rest, text = c :: rest ∧ accepts pattern rest = true := by
  unfold escapeChar
  split
  · cases text with
    | nil => simp [accepts]
    | cons d rest =>
      rw [cons_split_iff]
      simp [accepts]
  · next plain =>
    simp only [not_or] at plain
    cases text with
    | nil => simp [accepts, plain]
    | cons d rest =>
      rw [cons_split_iff]
      simp [accepts, plain]

/-- A pattern that begins with an escaped text asks for that text and then for what follows it. -/
theorem accepts_escaped (part pattern text : List Char) :
    accepts (part.flatMap escapeChar ++ pattern) text = true ↔ ∃ rest, text = part ++ rest ∧ accepts pattern rest = true := by
  induction part generalizing text with
  | nil => simp
  | cons c part ih =>
    rw [List.flatMap_cons, List.append_assoc, accepts_escapeChar]
    constructor
    · rintro ⟨tail, rfl, htail⟩
      obtain ⟨rest, rfl, hrest⟩ := (ih tail).mp htail
      exact ⟨rest, rfl, hrest⟩
    · rintro ⟨rest, rfl, hrest⟩
      exact ⟨part ++ rest, rfl, (ih _).mpr ⟨rest, rfl, hrest⟩⟩

theorem someTail_eq_true_iff (test : List Char → Bool) (text : List Char) :
    someTail test text = true ↔ ∃ front rest, text = front ++ rest ∧ test rest = true := by
  induction text with
  | nil =>
    simp only [someTail, List.nil_eq, List.append_eq_nil_iff]
    exact ⟨fun h => ⟨[], [], ⟨rfl, rfl⟩, h⟩, fun ⟨_, _, ⟨_, hrest⟩, h⟩ => hrest ▸ h⟩
  | cons c text ih =>
    simp only [someTail, Bool.or_eq_true, ih]
    constructor
    · rintro (h | ⟨front, rest, rfl, h⟩)
      · exact ⟨[], c :: text, rfl, h⟩
      · exact ⟨c :: front, rest, rfl, h⟩
    · rintro ⟨front, rest, split, h⟩
      cases front with
      | nil => exact Or.inl (by rw [show c :: text = rest from split]; exact h)
      | cons d front =>
        obtain ⟨-, rfl⟩ := List.cons.inj split
        exact Or.inr ⟨front, rest, rfl, h⟩

theorem accepts_percent (text : List Char) : accepts ['%'] text = true := by
  rw [accepts, someTail_eq_true_iff]
  exact ⟨text, [], (List.append_nil text).symm, rfl⟩

/-- The pattern of a text test matches exactly the texts that pass the test. -/
theorem accepts_likePattern (kind : TextPattern) (text string : String) :
    accepts (likePattern kind text).toList string.toList = kind.holds string text := by
  rw [Bool.eq_iff_iff]
  cases kind with
  | startsWith =>
    simp only [likePattern, String.toList_append, toList_escapeLike, TextPattern.holds, List.isPrefixOf_iff_prefix]
    rw [show "%".toList = ['%'] from rfl, accepts_escaped]
    constructor
    · rintro ⟨rest, split, -⟩
      exact ⟨rest, split.symm⟩
    · rintro ⟨rest, split⟩
      exact ⟨rest, split.symm, accepts_percent rest⟩
  | endsWith =>
    simp only [likePattern, String.toList_append, toList_escapeLike, TextPattern.holds, List.isSuffixOf_iff_suffix]
    rw [show "%".toList = ['%'] from rfl, List.singleton_append, accepts, someTail_eq_true_iff]
    have whole (rest : List Char) : accepts (text.toList.flatMap escapeChar) rest = true ↔ rest = text.toList := by
      rw [← List.append_nil (text.toList.flatMap escapeChar), accepts_escaped]
      simp [accepts]
    simp only [whole]
    constructor
    · rintro ⟨front, rest, split, rfl⟩
      exact ⟨front, split.symm⟩
    · rintro ⟨front, split⟩
      exact ⟨front, _, split.symm, rfl⟩
  | contains =>
    simp only [likePattern, String.toList_append, toList_escapeLike, TextPattern.holds, TextPattern.occurs_eq_true_iff]
    rw [show "%".toList = ['%'] from rfl, List.append_assoc, List.singleton_append, accepts, someTail_eq_true_iff]
    simp only [accepts_escaped, accepts_percent, and_true]
    constructor
    · rintro ⟨front, rest, split, tail, rfl⟩
      exact ⟨front, tail, by rw [split, List.append_assoc]⟩
    · rintro ⟨front, tail, split⟩
      exact ⟨front, text.toList ++ tail, by rw [split, List.append_assoc], tail, rfl⟩

end Like

end Relational

end ObjectStore
