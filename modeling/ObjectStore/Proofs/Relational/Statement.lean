import ObjectStore.Proofs.Relational.Lexer

/-!
# Statements that can be sent

A text that holds a zero character cannot be sent. The fixed words of a statement and its placeholders hold none, so only a name can bring one in.
-/

namespace ObjectStore

namespace Relational

def Piece.isSendable : Piece → Bool
  | sql text => !text.toList.contains '\x00'
  | name column => !column.toList.contains '\x00'
  | value _ => true

theorem not_mem_quoteName {name : String} (h : '\x00' ∉ name.toList) : '\x00' ∉ (quoteName name).toList := by
  rw [Sql.toList_quoteName]
  simp only [List.mem_cons, List.mem_append, List.mem_flatMap, List.not_mem_nil, or_false, not_or, not_exists, not_and]
  refine ⟨by decide, ?_, by decide⟩
  intro c hc
  split
  · decide
  · rw [List.mem_singleton]
    rintro rfl
    exact h hc

theorem not_mem_placeholder (number : Nat) (type : SqlType) : '\x00' ∉ (Pieces.placeholder number type).toList := by
  simp only [Pieces.placeholder, String.toList_append, List.mem_append, not_or, Numeral.toList_toString]
  refine ⟨⟨⟨by decide, ?_⟩, by decide⟩, by cases type <;> decide⟩
  intro hmem
  exact absurd (Numeral.isDigit_of_mem_digits hmem) (by decide)

theorem not_mem_texts {pieces : Pieces} (h : ∀ piece ∈ pieces, piece.isSendable = true) (bound : Nat) :
    ∀ text ∈ pieces.texts bound, '\x00' ∉ text.toList := by
  induction pieces generalizing bound with
  | nil => exact fun _ hnone => absurd hnone List.not_mem_nil
  | cons piece rest ih =>
    obtain ⟨hpiece, hrest⟩ := List.forall_mem_cons.mp h
    cases piece with
    | sql text => exact List.forall_mem_cons.mpr ⟨by simpa [Piece.isSendable] using hpiece, ih hrest bound⟩
    | name name => exact List.forall_mem_cons.mpr ⟨not_mem_quoteName (by simpa [Piece.isSendable] using hpiece), ih hrest bound⟩
    | value value =>
      rw [Pieces.texts]
      cases SqlType.ofValue? value with
      | none => exact List.forall_mem_cons.mpr ⟨by decide, ih hrest bound⟩
      | some type => exact List.forall_mem_cons.mpr ⟨not_mem_placeholder _ type, ih hrest (bound + 1)⟩

/-- A statement whose names hold no zero character can be sent. -/
theorem not_mem_text {pieces : Pieces} (h : ∀ piece ∈ pieces, piece.isSendable = true) :
    '\x00' ∉ (Statement.ofPieces pieces).text.toList := by
  rw [Statement.ofPieces, String.toList_join, List.mem_flatMap]
  rintro ⟨text, htext, hzero⟩
  exact not_mem_texts h 0 text htext hzero

end Relational

end ObjectStore
