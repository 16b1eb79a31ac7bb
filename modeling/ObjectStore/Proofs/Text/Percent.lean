import ObjectStore.Text.Percent

/-!
# Escaped names

An escape is read back as the character that it stands for, whatever follows it, because every percent sign of a name is escaped too. So different names stay different, and an escaped name has none of the characters that a document database takes for operators or paths.

A text that was never escaped is read too. The reader goes from one percent sign to the next and takes up the escape that begins there, or the sign alone; every step leaves less of the text, so it comes to the end.
-/

namespace ObjectStore

namespace Percent

/-- The characters that are escaped. -/
def special : List Char := ['%', '.', '$', '\x00']

theorem escapeChar_of_not_mem {c : Char} (h : c ∉ special) : escapeChar c = [c] := by
  simp only [special, List.mem_cons, List.not_mem_nil, or_false, not_or] at h
  obtain ⟨hpercent, hpoint, hdollar, hzero⟩ := h
  rw [escapeChar, if_neg hpercent, if_neg hpoint, if_neg hdollar, if_neg hzero]

/-- One escape is taken off the front. -/
theorem restoreChars_escapeChar (c : Char) (rest : List Char) :
    restoreChars (escapeChar c ++ rest) = c :: restoreChars rest := by
  by_cases hspecial : c ∈ special
  · simp only [special, List.mem_cons, List.not_mem_nil, or_false] at hspecial
    rcases hspecial with rfl | rfl | rfl | rfl
    all_goals
      simp only [escapeChar]
      rfl
  · have hpercent : c ≠ '%' := by
      rintro rfl
      exact hspecial (by decide)
    rw [escapeChar_of_not_mem hspecial, List.singleton_append, restoreChars]
    all_goals
      intro _ hescape
      exact absurd hescape hpercent

theorem restoreChars_escapeChars (text : List Char) : restoreChars (escapeChars text) = text := by
  induction text with
  | nil => rfl
  | cons c rest ih =>
    show restoreChars (escapeChar c ++ escapeChars rest) = c :: rest
    rw [restoreChars_escapeChar, ih]

@[simp] theorem restore_escape (name : String) : restore (escape name) = name := by
  rw [restore, escape, String.toList_ofList, restoreChars_escapeChars, String.ofList_toList]

theorem escape_injective {a b : String} (h : escape a = escape b) : a = b := by
  rw [← restore_escape a, h, restore_escape]

@[simp] theorem escape_inj {a b : String} : escape a = escape b ↔ a = b :=
  ⟨escape_injective, congrArg escape⟩

/-- Points, dollar signs and zero characters are gone. -/
theorem not_mem_escape {c : Char} (hc : c ∈ ['.', '$', '\x00']) (name : String) : c ∉ (escape name).toList := by
  rw [escape, String.toList_ofList, escapeChars, List.mem_flatMap]
  rintro ⟨d, -, hescaped⟩
  by_cases hspecial : d ∈ special
  · simp only [special, List.mem_cons, List.not_mem_nil, or_false] at hspecial
    simp only [List.mem_cons, List.not_mem_nil, or_false] at hc
    rcases hspecial with rfl | rfl | rfl | rfl
    all_goals
      rcases hc with rfl | rfl | rfl
      all_goals exact absurd hescaped (by decide)
  · rw [escapeChar_of_not_mem hspecial, List.mem_singleton] at hescaped
    subst hescaped
    exact hspecial (List.mem_cons_of_mem _ hc)

/-! ### Texts that were never escaped -/

/-- Whether a text begins with one of the escapes. -/
def StartsEscape (text : List Char) : Prop := ∃ c ∈ special, escapeChar c <+: text

/-- How a text is read, from the front to its end: an escape as the character that it stands for, and any other character, be it a percent sign, as itself. -/
inductive Reads : List Char → List Char → Prop where
  | nil : Reads [] []
  | escaped {c : Char} {rest name : List Char} (h : c ∈ special) : Reads rest name → Reads (escapeChar c ++ rest) (c :: name)
  | plain {c : Char} {rest name : List Char} (h : ¬StartsEscape (c :: rest)) : Reads rest name → Reads (c :: rest) (c :: name)

theorem escapeChar_of_mem {c : Char} (h : c ∈ special) : ∃ a b, escapeChar c = ['%', a, b] := by
  simp only [special, List.mem_cons, List.not_mem_nil, or_false] at h
  rcases h with rfl | rfl | rfl | rfl <;> exact ⟨_, _, rfl⟩

theorem not_startsEscape_of_ne {c : Char} (hne : c ≠ '%') (rest : List Char) : ¬StartsEscape (c :: rest) := by
  rintro ⟨d, hd, hprefix⟩
  obtain ⟨a, b, hescape⟩ := escapeChar_of_mem hd
  rw [hescape] at hprefix
  exact hne (List.cons_prefix_cons.mp hprefix).1.symm

/-- The character whose escape a text begins with. -/
def escapedAt? (text : List Char) : Option Char := special.find? fun c => (escapeChar c).isPrefixOf text

theorem exists_of_escapedAt? {text : List Char} {c : Char} (h : escapedAt? text = some c) :
    c ∈ special ∧ ∃ rest, text = escapeChar c ++ rest := by
  have hprefix : (escapeChar c).isPrefixOf text = true := List.find?_some (p := fun c => (escapeChar c).isPrefixOf text) h
  obtain ⟨rest, hrest⟩ := List.isPrefixOf_iff_prefix.mp hprefix
  exact ⟨List.mem_of_find?_eq_some h, rest, hrest.symm⟩

theorem not_startsEscape_of_escapedAt? {text : List Char} (h : escapedAt? text = none) : ¬StartsEscape text := by
  rintro ⟨c, hc, hprefix⟩
  exact List.find?_eq_none.mp h c hc (List.isPrefixOf_iff_prefix.mpr hprefix)

theorem restoreChars_of_not_startsEscape {c : Char} {rest : List Char} (h : ¬StartsEscape (c :: rest)) :
    restoreChars (c :: rest) = c :: restoreChars rest := by
  rw [restoreChars]
  all_goals
    rintro after rfl rfl
    apply h
  · exact ⟨'%', by decide, List.prefix_append ['%', '2', '5'] after⟩
  · exact ⟨'.', by decide, List.prefix_append ['%', '2', 'E'] after⟩
  · exact ⟨'$', by decide, List.prefix_append ['%', '2', '4'] after⟩
  · exact ⟨'\x00', by decide, List.prefix_append ['%', '0', '0'] after⟩

theorem restoreChars_append {before : List Char} (h : '%' ∉ before) (rest : List Char) :
    restoreChars (before ++ rest) = before ++ restoreChars rest := by
  induction before with
  | nil => rfl
  | cons c before ih =>
    obtain ⟨hne, hbefore⟩ := not_or.mp (mt List.mem_cons.mpr h)
    rw [List.cons_append, restoreChars_of_not_startsEscape (not_startsEscape_of_ne (Ne.symm hne) _), ih hbefore, List.cons_append]

theorem restoreChars_of_not_mem {text : List Char} (h : '%' ∉ text) : restoreChars text = text := by
  have hcopied := restoreChars_append h []
  rwa [restoreChars, List.append_nil] at hcopied

theorem reads_restoreChars (text : List Char) : Reads text (restoreChars text) := by
  fun_induction restoreChars text with
  | case1 rest ih => exact .escaped (c := '%') (by decide) ih
  | case2 rest ih => exact .escaped (c := '.') (by decide) ih
  | case3 rest ih => exact .escaped (c := '$') (by decide) ih
  | case4 rest ih => exact .escaped (c := '\x00') (by decide) ih
  | case5 c rest hpercent hpoint hdollar hzero ih =>
    refine .plain ?_ ih
    rintro ⟨d, hd, after, hafter⟩
    simp only [special, List.mem_cons, List.not_mem_nil, or_false] at hd
    rcases hd with rfl | rfl | rfl | rfl <;> injection hafter with hsign hafter
    · exact hpercent after hsign.symm hafter.symm
    · exact hpoint after hsign.symm hafter.symm
    · exact hdollar after hsign.symm hafter.symm
    · exact hzero after hsign.symm hafter.symm
  | case6 => exact .nil

theorem Reads.eq {text name : List Char} (h : Reads text name) : restoreChars text = name := by
  induction h with
  | nil => rfl
  | escaped _ _ ih => rw [restoreChars_escapeChar, ih]
  | plain hescape _ ih => rw [restoreChars_of_not_startsEscape hescape, ih]

/-! ### From one percent sign to the next -/

/-- Where a reader stands that looks for the percent signs of a text: the name that it has read so far, and what it has not read. -/
structure Scan where
  name : List Char
  rest : List Char

namespace Scan

/-- Copies what comes before the next percent sign, and then reads the escape that begins there, or else copies the sign. -/
def step? (scan : Scan) : Option Scan :=
  let copied := scan.name ++ scan.rest.takeWhile (· != '%')
  match scan.rest.dropWhile (· != '%') with
  | [] => none
  | sign :: after =>
    match escapedAt? (sign :: after) with
    | some c => some ⟨copied ++ [c], (sign :: after).drop (escapeChar c).length⟩
    | none => some ⟨copied ++ [sign], after⟩

/-- The name with which a reader ends, when no percent sign is left and the remaining text is copied. -/
inductive Ends : Scan → List Char → Prop where
  | last {scan : Scan} (h : scan.step? = none) : Ends scan (scan.name ++ scan.rest)
  | step {scan next : Scan} {name : List Char} (h : scan.step? = some next) : Ends next name → Ends scan name

/-- What one step does. -/
inductive Moves : Scan → Scan → Prop where
  | escape {name before rest : List Char} {c : Char} (hbefore : '%' ∉ before) (hc : c ∈ special) :
    Moves ⟨name, before ++ (escapeChar c ++ rest)⟩ ⟨name ++ before ++ [c], rest⟩
  | sign {name before rest : List Char} (hbefore : '%' ∉ before) (h : ¬StartsEscape ('%' :: rest)) :
    Moves ⟨name, before ++ '%' :: rest⟩ ⟨name ++ before ++ ['%'], rest⟩

theorem not_mem_takeWhile (text : List Char) : '%' ∉ text.takeWhile (· != '%') := fun hmem =>
  absurd (List.all_eq_true.mp List.all_takeWhile _ hmem) (by decide)

theorem not_mem_of_step?_eq_none {scan : Scan} (h : scan.step? = none) : '%' ∉ scan.rest := by
  rw [step?] at h
  split at h
  · next hnone =>
    rw [← List.takeWhile_append_dropWhile (p := (· != '%')) (l := scan.rest), hnone, List.append_nil]
    exact not_mem_takeWhile scan.rest
  · split at h <;> cases h

theorem moves_of_step? {scan next : Scan} (h : scan.step? = some next) : Moves scan next := by
  obtain ⟨name, text⟩ := scan
  rw [step?] at h
  have hbefore := not_mem_takeWhile text
  have htext : text.takeWhile (· != '%') ++ text.dropWhile (· != '%') = text := List.takeWhile_append_dropWhile
  have hhead := List.head?_dropWhile_not (· != '%') text
  generalize text.takeWhile (· != '%') = before at h hbefore htext
  generalize text.dropWhile (· != '%') = left at h htext hhead
  subst htext
  cases left with
  | nil => cases h
  | cons sign after =>
    obtain rfl : sign = '%' := by simpa using hhead
    cases hescaped : escapedAt? ('%' :: after) with
    | some c =>
      obtain ⟨hc, rest, hrest⟩ := exists_of_escapedAt? hescaped
      have hdrop : ('%' :: after).drop (escapeChar c).length = rest := by rw [hrest, List.drop_left]
      simp only [hescaped, hdrop, Option.some.injEq] at h
      subst h
      rw [hrest]
      exact .escape hbefore hc
    | none =>
      simp only [hescaped, Option.some.injEq] at h
      subst h
      exact .sign hbefore (not_startsEscape_of_escapedAt? hescaped)

/-- A step takes up a part of what is left, and the name that can be read from there on stays the same. -/
theorem Moves.keeps {scan next : Scan} (h : Moves scan next) :
    next.rest.length < scan.rest.length ∧ next.name ++ restoreChars next.rest = scan.name ++ restoreChars scan.rest := by
  cases h with
  | @escape name before rest c hbefore hc =>
    obtain ⟨a, b, hescape⟩ := escapeChar_of_mem hc
    refine ⟨?_, ?_⟩
    · simp only [List.length_append, hescape, List.length_cons]
      omega
    · simp only [restoreChars_append hbefore, restoreChars_escapeChar, List.append_assoc, List.singleton_append]
  | @sign name before rest hbefore hsign =>
    refine ⟨?_, ?_⟩
    · simp only [List.length_append, List.length_cons]
      omega
    · simp only [restoreChars_append hbefore, restoreChars_of_not_startsEscape hsign, List.append_assoc, List.singleton_append]

/-- However much is left, the reader comes to an end, with all of it read. -/
theorem ends_restoreChars (scan : Scan) : Ends scan (scan.name ++ restoreChars scan.rest) := by
  induction hlength : scan.rest.length using Nat.strongRecOn generalizing scan with
  | ind length ih =>
    subst hlength
    cases hstep : scan.step? with
    | none =>
      rw [restoreChars_of_not_mem (not_mem_of_step?_eq_none hstep)]
      exact .last hstep
    | some next =>
      obtain ⟨hless, hsame⟩ := (moves_of_step? hstep).keeps
      rw [← hsame]
      exact .step hstep (ih next.rest.length hless next rfl)

theorem Ends.eq {scan : Scan} {name : List Char} (h : Ends scan name) : scan.name ++ restoreChars scan.rest = name := by
  induction h with
  | last hstep => rw [restoreChars_of_not_mem (not_mem_of_step?_eq_none hstep)]
  | step hstep _ ih => rw [← (moves_of_step? hstep).keeps.2, ih]

end Scan

/-- A name is read back from the form in which it is kept, that form has none of the characters that mean something else, and different names have different forms. Of any text whatsoever the reader comes to the end, and what it has read by then takes up every escape as its character and copies everything else. -/
theorem escapes_reversible :
    (∀ name : String, restore (escape name) = name) ∧
      (∀ name : String, ∀ c ∈ ['.', '$', '\x00'], c ∉ (escape name).toList) ∧
      (∀ name other : String, name ≠ other → escape name ≠ escape other) ∧
      ∀ text : String, ∀ read : List Char,
        (Scan.Ends ⟨[], text.toList⟩ read ↔ read = (restore text).toList) ∧ (Reads text.toList read ↔ read = (restore text).toList) := by
  refine ⟨restore_escape, fun name c hc => not_mem_escape hc name, fun name other hne => mt escape_injective hne,
    fun text read => ?_⟩
  rw [restore, String.toList_ofList]
  refine ⟨⟨fun h => h.eq.symm, ?_⟩, fun h => h.eq.symm, ?_⟩
  · rintro rfl
    exact Scan.ends_restoreChars ⟨[], text.toList⟩
  · rintro rfl
    exact reads_restoreChars text.toList

theorem lookAlikes_reversible :
    escape "a.b" ≠ escape "a%2Eb" ∧ restore (escape "%%2E%2") = "%%2E%2" ∧ '.' ∉ (escape "%.2E").toList ∧
      Scan.Ends ⟨[], "%%2E%252E%2".toList⟩ "%.%2E%2".toList := by
  obtain ⟨hback, hclear, hdistinct, hany⟩ := escapes_reversible
  refine ⟨hdistinct _ _ (by decide), hback _, hclear _ _ (by decide), (hany _ _).1.mpr ?_⟩
  decide

end Percent

end ObjectStore
