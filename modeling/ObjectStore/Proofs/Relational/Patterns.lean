import ObjectStore.Proofs.Relational.Reading

/-!
# Texts that patterns find

A pattern matches a text when the text can be cut up among the signs of the pattern. The server's matcher decides that, and the pattern that is bound for a text test matches exactly the strings that pass the test, whatever signs the text holds itself.
-/

namespace ObjectStore

namespace Relational

open TextPattern (holds_iff_finds)

namespace Like

/-- How a text matches a pattern. A percent sign takes any run of characters and an underscore any one; a backslash makes the character behind it stand for itself, as every other character does by itself. -/
inductive Matches : List Char → List Char → Prop where
  | nil : Matches [] []
  | run (front : List Char) {pattern text : List Char} (hrest : Matches pattern text) : Matches ('%' :: pattern) (front ++ text)
  | one (c : Char) {pattern text : List Char} (hrest : Matches pattern text) : Matches ('_' :: pattern) (c :: text)
  | escaped (c : Char) {pattern text : List Char} (hrest : Matches pattern text) : Matches ('\\' :: c :: pattern) (c :: text)
  | plain {c : Char} (hplain : c ≠ '%' ∧ c ≠ '_' ∧ c ≠ '\\') {pattern text : List Char} (hrest : Matches pattern text) :
      Matches (c :: pattern) (c :: text)

theorem accepts_of_matches {pattern text : List Char} (h : Matches pattern text) : accepts pattern text = true := by
  induction h with
  | nil => rfl
  | run front _ ih =>
    rw [accepts, someTail_eq_true_iff]
    exact ⟨front, _, rfl, ih⟩
  | one c _ ih => exact ih
  | escaped c _ ih => simp [accepts, ih]
  | plain hplain _ ih => simp [accepts, hplain, ih]

theorem matches_of_accepts {pattern text : List Char} (h : accepts pattern text = true) : Matches pattern text := by
  match pattern with
  | [] =>
    rw [List.isEmpty_iff.mp h]
    exact .nil
  | c :: pattern =>
    by_cases hrun : c = '%'
    · subst hrun
      obtain ⟨front, rest, rfl, hrest⟩ := (someTail_eq_true_iff _ _).mp h
      exact .run front (matches_of_accepts hrest)
    by_cases hone : c = '_'
    · subst hone
      cases text with
      | nil => simp [accepts] at h
      | cons d text => exact .one d (matches_of_accepts h)
    by_cases hescape : c = '\\'
    · subst hescape
      cases pattern with
      | nil => simp [accepts] at h
      | cons e pattern =>
        cases text with
        | nil => simp [accepts] at h
        | cons d text =>
          obtain ⟨rfl, hrest⟩ : e = d ∧ accepts pattern text = true := by
            simpa [accepts] using h
          exact .escaped e (matches_of_accepts hrest)
    · cases text with
      | nil => simp [accepts, hescape] at h
      | cons d text =>
        obtain ⟨rfl, hrest⟩ : c = d ∧ accepts pattern text = true := by
          simpa [accepts, hrun, hone, hescape] using h
        exact .plain ⟨hrun, hone, hescape⟩ (matches_of_accepts hrest)
termination_by pattern.length

theorem accepts_iff_matches {pattern text : List Char} : accepts pattern text = true ↔ Matches pattern text :=
  ⟨matches_of_accepts, accepts_of_matches⟩

end Like

/-- The text test of a column is a pattern that is bound. -/
theorem ofPredicate_pattern {table : Table} {key : String} (hcolumn : table.hasColumn key = true) (kind : TextPattern) (text : String) :
    Condition.ofPredicate table (.pattern kind key text) = .like key (likePattern kind text) := by
  rw [Condition.ofPredicate, Condition.ofPattern, if_pos hcolumn]

/-- The server finds, by the pattern that is bound for a text, exactly the strings in which the text test finds the text itself. -/
theorem patterns_find_literally (contains : Containment) {table : Table} {key : String} (hcolumn : table.hasColumn key = true)
    (kind : TextPattern) (text string : String) {cells : Cells} (hcell : cells key = some (.string string)) {record : Fields}
    (hfield : OrderedMap.get? record key = some (.string string)) :
    let predicate := Predicate.pattern kind key text
    let pieces := (Condition.ofPredicate table predicate).pieces
    (∃ pattern, pieces.parameters = [.string pattern] ∧
        (Like.Matches pattern.toList string.toList ↔ kind.Finds text string)) ∧
      (predicate.holds record = true ↔ kind.Finds text string) ∧
      Sql.read ⟨contains, cells, pieces.parameters⟩ (Statement.ofPieces pieces).text = some (.ofBool (predicate.holds record)) := by
  intro predicate pieces
  have hpieces : pieces = (Condition.like key (likePattern kind text)).pieces := by
    rw [← ofPredicate_pattern hcolumn]
  have hholds : predicate.holds record = kind.holds string text := by
    simp only [predicate, Predicate.holds, Predicate.patternHolds, hfield]
  refine ⟨⟨likePattern kind text, ?_, ?_⟩, ?_, ?_⟩
  · rw [hpieces]
    rfl
  · rw [← Like.accepts_iff_matches, Like.accepts_likePattern, holds_iff_finds]
  · rw [hholds, holds_iff_finds]
  · have hscope : (Condition.like key (likePattern kind text)).WellFormed cells := by
      simp [Condition.WellFormed, hcell]
    have htruth : (Condition.like key (likePattern kind text)).truth contains cells = .ofBool (predicate.holds record) := by
      rw [Condition.truth, Term.read, hcell, Option.getD_some, Condition.likeTruth, Like.accepts_likePattern, hholds]
    rw [hpieces, Sql.read_ofPieces contains hscope, htruth]

theorem discounts_find_literally :
    let table : Table := { name := "offers", columns := [("_id", .text), ("note", .text)] }
    let record : Fields := [("note", .string "now 50%_\\")]
    let predicate := Predicate.pattern .endsWith "note" "%_\\"
    table.hasColumn "note" = true ∧
    (Condition.ofPredicate table predicate).pieces.parameters = [.string "%\\%\\_\\\\"] ∧
    predicate.holds record = true ∧
    Sql.read ⟨fun _ _ => false, OrderedMap.get? record, [.string "%\\%\\_\\\\"]⟩
        "(\"note\" LIKE $1::text ESCAPE '\\')" = some .yes := by
  intro table record predicate
  have hcolumn : table.hasColumn "note" = true := rfl
  have hfield : OrderedMap.get? record "note" = some (.string "now 50%_\\") := rfl
  obtain ⟨-, hholds, hread⟩ := patterns_find_literally (fun _ _ => false) hcolumn .endsWith "%_\\" "now 50%_\\" hfield hfield
  have hfinds : TextPattern.endsWith.Finds "%_\\" "now 50%_\\" := ⟨"now 50".toList, rfl⟩
  have htrue := hholds.mpr hfinds
  rw [htrue] at hread
  exact ⟨hcolumn, rfl, htrue, hread⟩

end Relational

end ObjectStore
