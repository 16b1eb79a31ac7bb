import ObjectStore.Predicate.Evaluate

/-!
# Where texts stand

A text test asks whether a text stands at the front of a string, at its end or anywhere in it. The test that runs is proved to ask just that, so that every translation of it can be compared with the position of the text.
-/

namespace ObjectStore

namespace TextPattern

/-- Where a text stands in the strings that pass its test. -/
def Finds (kind : TextPattern) (text string : String) : Prop :=
  match kind with
  | startsWith => text.toList <+: string.toList
  | endsWith => text.toList <:+ string.toList
  | contains => text.toList <:+: string.toList

theorem occurs_eq_true_iff (part text : List Char) :
    TextPattern.occurs part text = true ↔ ∃ front rest, text = front ++ part ++ rest := by
  induction text with
  | nil =>
    cases part <;> simp [TextPattern.occurs]
  | cons c text ih =>
    simp only [TextPattern.occurs, Bool.or_eq_true, List.isPrefixOf_iff_prefix, ih]
    constructor
    · rintro (⟨rest, h⟩ | ⟨front, rest, rfl⟩)
      · exact ⟨[], rest, h.symm⟩
      · exact ⟨c :: front, rest, rfl⟩
    · rintro ⟨front, rest, split⟩
      cases front with
      | nil => exact Or.inl ⟨rest, split.symm⟩
      | cons d front =>
        obtain ⟨-, rfl⟩ := List.cons.inj split
        exact Or.inr ⟨front, rest, rfl⟩

theorem holds_iff_finds {kind : TextPattern} {text string : String} : kind.holds string text = true ↔ kind.Finds text string := by
  cases kind with
  | startsWith => exact List.isPrefixOf_iff_prefix
  | endsWith => exact List.isSuffixOf_iff_suffix
  | contains =>
    rw [TextPattern.holds, occurs_eq_true_iff]
    exact exists₂_congr fun _ _ => eq_comm

end TextPattern

end ObjectStore
