import ObjectStore.Documents.Options
import ObjectStore.Proofs.Memory.Results
import ObjectStore.Proofs.Relational.Wording

/-!
# Pages of matches

A query passes over some of its ordered matches and returns the next ones, up to a limit. The statement for a table ends with both numbers, as far as they are given, and the server counts rows as the store in memory counts records. The options for documents carry the limit in 64 bits with a sign. There zero is no limit and a number below zero stands for its absolute value, so a limit of zero returns every match instead of none, and one of more than `2 ^ 63` returns fewer than it allows.
-/

namespace ObjectStore

/-- The query for all matches, with the same order. -/
def FindQuery.unbounded (query : FindQuery) : FindQuery := { query with skip := 0, limit := none }

/-! ### Rows -/

namespace Relational

namespace Sql

/-- The bounds at the end of a statement. -/
structure Bounds where
  offset : Option Nat := none
  limit : Option Nat := none

namespace Bounds

/-- The bounds with the one of a keyword, which must not be there yet. -/
def set? (bounds : Bounds) (keyword : String) (number : Nat) : Option Bounds :=
  if keyword = "OFFSET" ∧ bounds.offset = none then some { bounds with offset := some number }
  else if keyword = "LIMIT" ∧ bounds.limit = none then some { bounds with limit := some number }
  else none

/-- The bounds that some lexemes set. -/
def ofLexemes? : List Lexeme → Option Bounds
  | [] => some {}
  | .word keyword :: .word text :: rest => do (← ofLexemes? rest).set? keyword (← Numeral.natural? text.toList)
  | _ => none

/-- The rows within bounds. Rows are passed over before any are counted. -/
def rows {α : Type} (bounds : Bounds) (rows : List α) : List α :=
  let left := rows.drop (bounds.offset.getD 0)
  match bounds.limit with
  | some limit => left.take limit
  | none => left

end Bounds

/-- A text that gives certain lexemes and can stand behind anything. -/
def Ends (text : List Char) (words : List Lexeme) : Prop :=
  ∃ glyphs, Sql.glyphs text = some glyphs ∧ lexemes glyphs = words ∧ ∀ glyph ∈ glyphs.head?, glyph.edge = .free

theorem ends_nil : Ends [] [] := ⟨[], rfl, rfl, nofun⟩

theorem Ends.append {front rest : List Char} {first second : List Lexeme} (hfront : Ends front first) (hrest : Ends rest second) :
    Ends (front ++ rest) (first ++ second) := by
  obtain ⟨glyphs, hglyphs, rfl, hhead⟩ := hfront
  obtain ⟨more, hmore, rfl, hfree⟩ := hrest
  have hapart := apart_of_free_right glyphs hfree
  refine ⟨glyphs ++ more, glyphs_append hglyphs hmore hapart, lexemes_append hapart, ?_⟩
  cases glyphs with
  | nil => exact hfree
  | cons glyph glyphs => exact hhead

theorem ends_number {text keyword : String} (hseparates : isSeparator text = true) (hkeyword : scan text.toList = some [.word keyword])
    (number : Nat) : Ends (text ++ toString number).toList [.word keyword, .word (toString number)] := by
  obtain ⟨words, glyphs, hwords, -, hglyphs, hlexemes, hfree⟩ := glyphs_numbered hseparates number
  obtain rfl := Option.some.inj (hwords.symm.trans hkeyword)
  exact ⟨glyphs, hglyphs, hlexemes, hfree⟩

/-- The lexemes of a page. -/
def pageWords (skip : Nat) (limit : Option Nat) : List Lexeme :=
  (if 0 < skip then [.word "OFFSET", .word (toString skip)] else []) ++
    limit.elim [] fun limit => [.word "LIMIT", .word (toString limit)]

theorem ends_paging (before skip : Nat) (limit : Option Nat) :
    Ends (textOf before (Pieces.paging skip limit)) (pageWords skip limit) := by
  rw [Pieces.paging.eq_def, textOf_append]
  refine Ends.append ?_ ?_
  · split
    · rw [Pieces.textOf_singleton_sql]
      exact ends_number rfl rfl skip
    · exact ends_nil
  · cases limit with
    | none => exact ends_nil
    | some limit =>
      rw [Pieces.textOf_singleton_sql]
      exact ends_number rfl rfl limit

theorem ofLexemes?_cons (keyword : String) (number : Nat) (rest : List Lexeme) :
    Bounds.ofLexemes? (.word keyword :: .word (toString number) :: rest) =
      (Bounds.ofLexemes? rest).bind fun bounds => bounds.set? keyword number := by
  have hnumber : Numeral.natural? (toString number).toList = some number := by
    rw [Numeral.toList_toString, Numeral.natural?_eq_some (Numeral.digits_ne_nil number)
      fun c hc => Numeral.isDigit_of_mem_digits hc, Numeral.accumulate_digits]
  rw [Bounds.ofLexemes?, hnumber]
  rfl

theorem ofLexemes?_pageWords (skip : Nat) (limit : Option Nat) :
    ∃ bounds, Bounds.ofLexemes? (pageWords skip limit) = some bounds ∧
      ∀ {α : Type} (rows : List α), bounds.rows rows = Memory.page skip limit rows := by
  have hlimit : Bounds.ofLexemes? (limit.elim [] fun limit => [.word "LIMIT", .word (toString limit)]) = some { limit } := by
    cases limit with
    | none => rfl
    | some limit => exact ofLexemes?_cons "LIMIT" limit []
  rw [pageWords]
  split
  · refine ⟨{ offset := some skip, limit }, ?_, fun rows => rfl⟩
    rw [List.cons_append, List.cons_append, List.nil_append, ofLexemes?_cons, hlimit]
    rfl
  · next hnone =>
    obtain rfl : skip = 0 := Nat.eq_zero_of_not_pos hnone
    exact ⟨_, hlimit, fun rows => rfl⟩

/-- The statement of a query is that for all matches, with the page behind it. -/
theorem scan_select (table : Table) (query : FindQuery) : ∃ words,
    scan (Statement.select table query.unbounded).text.toList = some words ∧
    scan (Statement.select table query).text.toList = some (words ++ pageWords query.skip query.limit) := by
  have hspelled : Pieces.Spelled table.Knows [] _ := Statement.spelled_ordered query
  obtain ⟨first, hfront, -⟩ := hspelled 0
  obtain ⟨second, hpage, hwords, hfree⟩ := ends_paging _ query.skip query.limit
  have hapart := apart_of_free_right first hfree
  have hall : Sql.glyphs (Statement.select table query.unbounded).text.toList = some first := by
    rw [Statement.select, show Pieces.paging query.unbounded.skip query.unbounded.limit = [] from rfl, List.append_nil]
    exact hfront
  have htext : Sql.glyphs (Statement.select table query).text.toList = some (first ++ second) := by
    have hboth := glyphs_append hfront hpage hapart
    rwa [← textOf_append] at hboth
  refine ⟨lexemes first, by rw [scan, hall, Option.map_some], ?_⟩
  rw [scan, htext, Option.map_some, lexemes_append hapart, hwords]

end Sql

end Relational

/-! ### Documents -/

namespace Documents

/-- The matches that the database returns of those in order. -/
def FindOptions.page {α : Type} (options : FindOptions) (items : List α) : List α :=
  let left := items.drop (options.skip.getD 0)
  match options.limit with
  | none => left
  | some limit => if limit = 0 then left else left.take limit.toInt.natAbs

/-- The number of matches that the database understands by a limit, if that bounds them. -/
def counted? (limit : Nat) : Option Nat :=
  if limit = 0 then none else some (if limit ≤ 2 ^ 63 then limit else 2 ^ 64 - limit)

theorem toInt_ofNat {limit : Nat} (h : limit < 2 ^ 64) :
    (Int64.ofNat limit).toInt = if limit < 2 ^ 63 then (limit : Int) else limit - 2 ^ 64 := by
  rw [Int64.toInt_ofNat', Int64.size, Int.bmod_def]
  split_ifs <;> omega

theorem natAbs_ofNat {limit : Nat} (h : limit < 2 ^ 64) :
    (Int64.ofNat limit).toInt.natAbs = if limit ≤ 2 ^ 63 then limit else 2 ^ 64 - limit := by
  rw [toInt_ofNat h]
  split_ifs <;> omega

theorem ofNat_eq_zero_iff {limit : Nat} (h : limit < 2 ^ 64) : Int64.ofNat limit = 0 ↔ limit = 0 := by
  rw [← Int64.toInt_inj, toInt_ofNat h, Int64.toInt_zero]
  split_ifs <;> omega

theorem page_ofQuery (query : FindQuery) (hword : ∀ limit ∈ query.limit, limit < 2 ^ 64) {α : Type} (items : List α) :
    (FindOptions.ofQuery query).page items = Memory.page query.skip (query.limit.bind counted?) items := by
  have hskip : (skipOf query).getD 0 = query.skip := by
    rw [skipOf]
    split
    · next hzero => exact hzero.symm
    · rfl
  rw [FindOptions.page, FindOptions.ofQuery, hskip]
  cases hlimit : query.limit with
  | none => rfl
  | some limit =>
    have hfits := hword limit hlimit
    rw [Option.map_some, Option.bind_some, counted?]
    by_cases hzero : limit = 0
    · subst hzero
      rfl
    · rw [if_neg hzero]
      simp only [if_neg (mt (ofNat_eq_zero_iff hfits).mp hzero), natAbs_ofNat hfits]
      rfl

theorem counted?_eq_iff {limit : Nat} (h : limit < 2 ^ 64) : counted? limit = some limit ↔ 0 < limit ∧ limit ≤ 2 ^ 63 := by
  rw [counted?]
  split
  · next hzero => exact iff_of_false nofun (by omega)
  · rw [Option.some.injEq]
    split <;> omega

end Documents

/-- Different limits give different pages of a list that is long enough. -/
theorem Memory.limit_eq_of_page_eq {skip : Nat} {limit other : Option Nat}
    (h : ∀ items : List Unit, page skip limit items = page skip other items) : limit = other := by
  have hlength : ∀ left, ((List.replicate (skip + left) ()).drop skip).length = left := by
    intro left
    rw [List.length_drop, List.length_replicate, Nat.add_sub_cancel_left]
  cases limit with
  | none =>
    cases other with
    | none => rfl
    | some other =>
      have hsame := congrArg List.length (h (List.replicate (skip + (other + 1)) ()))
      rw [page, page, List.length_take, hlength] at hsame
      omega
  | some limit =>
    cases other with
    | none =>
      have hsame := congrArg List.length (h (List.replicate (skip + (limit + 1)) ()))
      rw [page, page, List.length_take, hlength] at hsame
      omega
    | some other =>
      have hsame := congrArg List.length (h (List.replicate (skip + (limit + other)) ()))
      rw [page, page, List.length_take, List.length_take, hlength] at hsame
      exact congrArg some (by omega)

/-- The store in memory takes a page of all matches in their order, and the statement for a table is that for all matches with bounds behind it that give the same page. Documents give the page of the limit that the database understands, which is the same page exactly for no limit and for one from 1 to `2 ^ 63`. -/
theorem pages_agree (query : FindQuery) (hword : ∀ limit ∈ query.limit, limit < 2 ^ 64) :
    (∀ table : Memory.Table,
      Memory.selectEntries table query = Memory.page query.skip query.limit (Memory.selectEntries table query.unbounded)) ∧
    (∀ table : Relational.Table, ∃ words clause bounds,
      Relational.Sql.scan (Relational.Statement.select table query.unbounded).text.toList = some words ∧
      Relational.Sql.scan (Relational.Statement.select table query).text.toList = some (words ++ clause) ∧
      Relational.Sql.Bounds.ofLexemes? clause = some bounds ∧
      ∀ {α : Type} (rows : List α), bounds.rows rows = Memory.page query.skip query.limit rows) ∧
    (∀ {α : Type} (items : List α),
      (Documents.FindOptions.ofQuery query).page items = Memory.page query.skip (query.limit.bind Documents.counted?) items) ∧
    ((∀ {α : Type} (items : List α), (Documents.FindOptions.ofQuery query).page items = Memory.page query.skip query.limit items) ↔
      ∀ limit ∈ query.limit, 0 < limit ∧ limit ≤ 2 ^ 63) := by
  have hcounted : query.limit = query.limit.bind Documents.counted? ↔ ∀ limit ∈ query.limit, 0 < limit ∧ limit ≤ 2 ^ 63 := by
    cases hlimit : query.limit with
    | none => exact iff_of_true rfl nofun
    | some limit =>
      rw [Option.bind_some, eq_comm, Documents.counted?_eq_iff (hword limit hlimit)]
      exact ⟨fun h _ hsame => Option.some.inj hsame ▸ h, fun h => h limit rfl⟩
  refine ⟨?_, ?_, ?_, ?_⟩
  · intro table
    rw [Memory.selectEntries_eq_page, Memory.selectEntries_eq_page]
    rfl
  · intro table
    obtain ⟨words, hall, hscan⟩ := Relational.Sql.scan_select table query
    obtain ⟨bounds, hbounds, hrows⟩ := Relational.Sql.ofLexemes?_pageWords query.skip query.limit
    exact ⟨words, _, bounds, hall, hscan, hbounds, hrows⟩
  · exact Documents.page_ofQuery query hword
  · rw [← hcounted]
    constructor
    · intro h
      exact Memory.limit_eq_of_page_eq fun items => (h items).symm.trans (Documents.page_ofQuery query hword items)
    · intro h α items
      rw [Documents.page_ofQuery query hword, ← h]

/-- The third and the fourth match. -/
def secondPage : FindQuery where
  className := "T"
  skip := 2
  limit := some 2

theorem secondPage_agrees :
    (∀ limit ∈ secondPage.limit, limit < 2 ^ 64) ∧
      (Documents.FindOptions.ofQuery secondPage).page ["a", "b", "c", "d", "e"] = ["c", "d"] := by
  have hword : ∀ limit ∈ secondPage.limit, limit < 2 ^ 64 := by
    rintro _ ⟨⟩
    decide
  obtain ⟨-, -, -, hpage⟩ := pages_agree secondPage hword
  have hlimit : ∀ limit ∈ secondPage.limit, 0 < limit ∧ limit ≤ 2 ^ 63 := by
    rintro _ ⟨⟩
    decide
  exact ⟨hword, hpage.mpr hlimit ["a", "b", "c", "d", "e"]⟩

/-- No matches at all. -/
def nothing : FindQuery where
  className := "T"
  limit := some 0

/-- A limit of zero returns nothing from memory and everything from documents. -/
theorem zero_limit_ignored :
    Memory.selectEntries [("A", [])] nothing = [] ∧ (Documents.FindOptions.ofQuery nothing).page ["A"] = ["A"] :=
  ⟨rfl, rfl⟩

end ObjectStore
