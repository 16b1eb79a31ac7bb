import ObjectStore.Number.DecimalText
import ObjectStore.Proofs.Number.Decimal
import ObjectStore.Proofs.Text.Numeral

/-!
# Decimal text read back

Every text of a decimal has a sign, leading digits, a fraction and an exponent, and it is read from these parts. The number that is read has the same digits at every large scale; it is the decimal itself unless zeros were written out or left out.
-/

namespace ObjectStore

namespace Split

theorem atFirst_of_forall {test : Char → Bool} {text : List Char} (h : ∀ c ∈ text, test c = false) :
    atFirst test text = (text, none) := by
  have hkept : ∀ c ∈ text, (!test c) = true := by
    intro c hc
    rw [h c hc]
    rfl
  have hdrop : text.dropWhile (fun c => !test c) = [] := by
    rw [← List.append_nil text, List.dropWhile_append_of_pos hkept]
    rfl
  rw [atFirst, hdrop]

theorem atFirst_append {test : Char → Bool} {front : List Char} (h : ∀ c ∈ front, test c = false) {c : Char}
    (hc : test c = true) (rest : List Char) : atFirst test (front ++ c :: rest) = (front, some rest) := by
  have hkept : ∀ c ∈ front, (!test c) = true := by
    intro c hc
    rw [h c hc]
    rfl
  have hdrop : (front ++ c :: rest).dropWhile (fun c => !test c) = c :: rest := by
    rw [List.dropWhile_append_of_pos hkept, List.dropWhile_cons_of_neg (by simp [hc])]
  have htake : (front ++ c :: rest).takeWhile (fun c => !test c) = front := by
    rw [List.takeWhile_append_of_pos hkept, List.takeWhile_cons_of_neg (by simp [hc]), List.append_nil]
  rw [atFirst, hdrop, htake]

end Split

namespace Decimal

/-- The parts of a decimal text. -/
structure Spelling where
  negative : Bool
  lead : List Char
  fraction : Option (List Char)
  exponent : Option Int
  lead_ne_nil : lead ≠ []
  isDigit_lead : ∀ c ∈ lead, c.isDigit = true
  isDigit_fraction : ∀ c ∈ fraction.getD [], c.isDigit = true

namespace Spelling

def signText : Bool → List Char
  | true => ['-']
  | false => []

def fractionText : Option (List Char) → List Char
  | some digits => '.' :: digits
  | none => []

def exponentText : Option Int → List Char
  | some (.ofNat n) => 'e' :: '+' :: Numeral.digits n
  | some (.negSucc n) => 'E' :: '-' :: Numeral.digits (n + 1)
  | none => []

/-- The text in front of the exponent. -/
def base (s : Spelling) : List Char := signText s.negative ++ s.lead ++ fractionText s.fraction

def text (s : Spelling) : List Char := s.base ++ exponentText s.exponent

/-- All digits, without the point. -/
def digits (s : Spelling) : List Char := s.lead ++ s.fraction.getD []

/-- The number that the parts stand for. -/
def value (s : Spelling) : Decimal :=
  ⟨Double.signed s.negative (Numeral.accumulate 0 s.digits), (s.fraction.getD []).length - s.exponent.getD 0⟩

variable (s : Spelling)

theorem isDigit_digits {c : Char} (h : c ∈ s.digits) : c.isDigit = true :=
  (List.mem_append.mp h).elim (s.isDigit_lead c) (s.isDigit_fraction c)

theorem digits_ne_nil : s.digits ≠ [] := List.append_ne_nil_of_left_ne_nil s.lead_ne_nil _

theorem mem_base {c : Char} (h : c ∈ s.base) : c.isDigit = true ∨ c = '-' ∨ c = '.' := by
  have hlead := s.isDigit_lead c
  have hfraction := s.isDigit_fraction c
  simp only [base, List.mem_append] at h
  rcases h with (h | h) | h
  · cases hsign : s.negative <;> simp [hsign, signText] at h
    exact Or.inr (Or.inl h)
  · exact Or.inl (hlead h)
  · cases hpoint : s.fraction with
    | none => simp [hpoint, fractionText] at h
    | some digits =>
      simp only [hpoint, fractionText, List.mem_cons, Option.getD_some] at h hfraction
      exact h.elim (fun h => Or.inr (Or.inr h)) fun h => Or.inl (hfraction h)

theorem magnitude?_eq {text : List Char} (hne : text ≠ []) (hdigits : ∀ c ∈ text, c.isDigit = true) :
    magnitude? text = some (Numeral.accumulate 0 text) := by
  cases text with
  | nil => exact absurd rfl hne
  | cons c rest =>
    have hc := hdigits c List.mem_cons_self
    have hplus : c ≠ '+' := Numeral.ne_of_isDigit hc rfl
    have hunderscore : c ≠ '_' := Numeral.ne_of_isDigit hc rfl
    have hall : (c :: rest).all (fun c => c.isDigit || c == '_') = true :=
      List.all_eq_true.mpr fun d hd => by rw [hdigits d hd]; rfl
    have hkept : rest.filter (· != '_') = rest :=
      List.filter_eq_self.mpr fun d hd => bne_iff_ne.mpr (Numeral.ne_of_isDigit (hdigits d (List.mem_cons_of_mem _ hd)) rfl)
    simp [magnitude?, hplus, hunderscore, hall, hkept, -List.all_cons, -List.all_eq_true]

theorem signedDigits?_eq (negative : Bool) {text : List Char} (hne : text ≠ []) (hdigits : ∀ c ∈ text, c.isDigit = true) :
    signedDigits? (signText negative ++ text) = some (Double.signed negative (Numeral.accumulate 0 text)) := by
  have hread := magnitude?_eq hne hdigits
  cases text with
  | nil => exact absurd rfl hne
  | cons c rest =>
    have hc := hdigits c List.mem_cons_self
    have hplus : c ≠ '+' := Numeral.ne_of_isDigit hc rfl
    have hminus : c ≠ '-' := Numeral.ne_of_isDigit hc rfl
    cases negative with
    | true => simp [signText, signedDigits?, hplus, hread, Double.signed]
    | false => simp [signText, signedDigits?, hminus, hread, Double.signed]

theorem exponent?_eq {e : Int} (h : fitsBits 128 e = true) :
    ∃ mark rest, exponentText (some e) = mark :: rest ∧ (mark = 'e' ∨ mark = 'E') ∧ exponent? rest = some e := by
  have hdigits (n : Nat) : ∀ c ∈ Numeral.digits n, c.isDigit = true := fun _ => Numeral.isDigit_of_mem_digits
  cases e with
  | ofNat n =>
    refine ⟨'e', '+' :: Numeral.digits n, rfl, Or.inl rfl, ?_⟩
    have hread : Numeral.integer? ('+' :: Numeral.digits n) = some (n : Int) := by
      rw [Numeral.integer?, Numeral.natural?_eq_some (Numeral.digits_ne_nil n) (hdigits n), Numeral.accumulate_digits]
      rfl
    rw [exponent?, hread]
    exact Option.filter_some_pos h
  | negSucc n =>
    refine ⟨'E', '-' :: Numeral.digits (n + 1), rfl, Or.inr rfl, ?_⟩
    rw [exponent?, Numeral.integer?_negative (Numeral.digits_ne_nil _) (hdigits _), Numeral.accumulate_digits]
    exact Option.filter_some_pos h

theorem atFirst_point : Split.atFirst (· == '.') s.base = (signText s.negative ++ s.lead, s.fraction) := by
  have hfront : ∀ c ∈ signText s.negative ++ s.lead, (c == '.') = false := by
    intro c hc
    rcases List.mem_append.mp hc with hsign | hlead
    · cases hneg : s.negative <;> simp [hneg, signText] at hsign
      rw [hsign]
      rfl
    · exact beq_eq_false_iff_ne.mpr (Numeral.ne_of_isDigit (s.isDigit_lead c hlead) rfl)
  cases hpoint : s.fraction with
  | none =>
    rw [base, hpoint, fractionText, List.append_nil]
    exact Split.atFirst_of_forall hfront
  | some digits =>
    rw [base, hpoint]
    exact Split.atFirst_append hfront rfl digits

theorem base_not_mark {c : Char} (h : c ∈ s.base) : (c == 'e' || c == 'E') = false := by
  rcases s.mem_base h with hdigit | rfl | rfl
  · have hlower : c ≠ 'e' := Numeral.ne_of_isDigit hdigit rfl
    have hupper : c ≠ 'E' := Numeral.ne_of_isDigit hdigit rfl
    simp [hlower, hupper]
  · rfl
  · rfl

/-- A decimal text is read in two cuts, at the mark of the exponent and at the point. -/
theorem ofText?_eq {text base lead : List Char} {exponentPart fraction : Option (List Char)} {e : Int}
    (hmark : Split.atFirst (fun c => c == 'e' || c == 'E') text = (base, exponentPart))
    (hexponent : exponentPart.elim (some 0) exponent? = some e)
    (hpoint : Split.atFirst (· == '.') base = (lead, fraction)) :
    ofText? text =
      if scaleFits (((fraction.getD []).filter (· != '_')).length - e) then
        (signedDigits? (lead ++ fraction.getD [])).map fun digits =>
          ⟨digits, ((fraction.getD []).filter (· != '_')).length - e⟩
      else none := by
  rw [ofText?, hmark]
  cases exponentPart with
  | none =>
    cases hexponent
    dsimp only
    rw [Option.bind_eq_bind, Option.bind_some, hpoint]
  | some rest =>
    rw [Option.elim_some] at hexponent
    dsimp only
    rw [hexponent, Option.bind_eq_bind, Option.bind_some, hpoint]

theorem ofText?_text (hexponent : fitsBits 128 (s.exponent.getD 0) = true) (hscale : scaleFits s.value.scale = true) :
    ofText? s.text = some s.value := by
  have hplain : ∀ c ∈ s.base, (c == 'e' || c == 'E') = false := fun _ => s.base_not_mark
  have hplaces : (s.fraction.getD []).filter (· != '_') = s.fraction.getD [] :=
    List.filter_eq_self.mpr fun c hc => bne_iff_ne.mpr (Numeral.ne_of_isDigit (s.isDigit_fraction c hc) rfl)
  have hdigits := signedDigits?_eq s.negative s.digits_ne_nil fun _ => s.isDigit_digits
  rw [digits, ← List.append_assoc] at hdigits
  obtain ⟨exponentPart, hmark, hread⟩ : ∃ exponentPart,
      Split.atFirst (fun c => c == 'e' || c == 'E') s.text = (s.base, exponentPart) ∧
        exponentPart.elim (some 0) exponent? = some (s.exponent.getD 0) := by
    cases hpart : s.exponent with
    | none =>
      refine ⟨none, ?_, rfl⟩
      rw [text, hpart, exponentText, List.append_nil]
      exact Split.atFirst_of_forall hplain
    | some e =>
      rw [hpart, Option.getD_some] at hexponent
      obtain ⟨mark, rest, htext, hmark, hread⟩ := exponent?_eq hexponent
      refine ⟨some rest, ?_, hread⟩
      rw [text, hpart, htext]
      apply Split.atFirst_append hplain
      rcases hmark with rfl | rfl <;> rfl
  rw [ofText?_eq hmark hread s.atFirst_point, hplaces, hdigits, Option.map_some]
  exact if_pos hscale

end Spelling

/-! ### The parts of each text -/

/-- A text has parts that stand for a decimal. -/
def Spells (text : List Char) (d : Decimal) : Prop :=
  ∃ s : Spelling, s.text = text ∧ s.value = d ∧ fitsBits 128 (s.exponent.getD 0) = true

theorem Spells.ofText? {text : List Char} {d : Decimal} (h : Spells text d) (hscale : scaleFits d.scale = true) :
    Decimal.ofText? text = some d := by
  obtain ⟨s, rfl, rfl, hexponent⟩ := h
  exact s.ofText?_text hexponent hscale

theorem signed_natAbs (n : Int) : Double.signed (n < 0) n.natAbs = n := by
  rw [Double.signed]
  split
  · next hneg =>
    rw [decide_eq_true_eq] at hneg
    omega
  · next hneg =>
    rw [decide_eq_true_eq] at hneg
    omega

theorem mul_tenTo_neg_iff (n : Int) (zeros : Nat) : n * tenTo zeros < 0 ↔ n < 0 := by
  have hpos : (0 : Int) < tenTo zeros := Int.natCast_pos.mpr (tenTo_pos zeros)
  constructor
  · intro h
    apply Int.not_le.mp
    intro hn
    have hproduct := Int.mul_nonneg hn (Int.le_of_lt hpos)
    omega
  · intro h
    exact Int.mul_neg_of_neg_of_pos h hpos

section Texts

open Spelling

variable (n : Int)

theorem spells_of_parts (lead : List Char) (fraction : Option (List Char)) (exponent : Option Int) (hne : lead ≠ [])
    (hlead : ∀ c ∈ lead, c.isDigit = true) (hfraction : ∀ c ∈ fraction.getD [], c.isDigit = true)
    (hsum : Numeral.accumulate 0 (lead ++ fraction.getD []) = n.natAbs) (hfits : fitsBits 128 (exponent.getD 0) = true) :
    Spells (signText (n < 0) ++ (lead ++ (fractionText fraction ++ exponentText exponent)))
      ⟨n, (fraction.getD []).length - exponent.getD 0⟩ := by
  refine ⟨⟨n < 0, lead, fraction, exponent, hne, hlead, hfraction⟩, ?_, ?_, hfits⟩
  · simp [text, base, List.append_assoc]
  · rw [value, Spelling.digits, hsum, signed_natAbs]

theorem spells_zero : Spells ['0'] ⟨0, 0⟩ :=
  spells_of_parts 0 ['0'] none none (by simp) (by simp) (by simp) rfl rfl

theorem spells_whole (zeros : Nat) :
    Spells (signText (n < 0) ++ (Numeral.digits n.natAbs ++ List.replicate zeros '0')) ⟨n * tenTo zeros, 0⟩ := by
  have hdigits : ∀ c ∈ Numeral.digits n.natAbs ++ List.replicate zeros '0', c.isDigit = true := by
    intro c hc
    rcases List.mem_append.mp hc with hc | hc
    · exact Numeral.isDigit_of_mem_digits hc
    · rw [List.eq_of_mem_replicate hc]
      rfl
  have hne := List.append_ne_nil_of_left_ne_nil (Numeral.digits_ne_nil n.natAbs) (List.replicate zeros '0')
  have hsum : Numeral.accumulate 0 (Numeral.digits n.natAbs ++ List.replicate zeros '0') = (n * tenTo zeros).natAbs := by
    rw [Numeral.accumulate_append, Numeral.accumulate_digits, Numeral.accumulate_replicate_zero, Int.natAbs_mul,
      Int.natAbs_natCast]
  have hsign : n * tenTo zeros < 0 ↔ n < 0 := mul_tenTo_neg_iff n zeros
  have hspells := spells_of_parts (n * tenTo zeros) _ none none hne hdigits (by simp) (by simpa using hsum) rfl
  simpa [hsign, fractionText, exponentText] using hspells

theorem spells_large {e : Nat} (hfits : fitsBits 128 e = true) :
    Spells (signText (n < 0) ++ (Numeral.digits n.natAbs ++ 'e' :: '+' :: Numeral.digits e)) ⟨n, -e⟩ := by
  have hspells := spells_of_parts n _ none (some (e : Int)) (Numeral.digits_ne_nil n.natAbs)
    (fun _ => Numeral.isDigit_of_mem_digits) (by simp) (by simp [Numeral.accumulate_digits]) hfits
  simpa [fractionText, exponentText] using hspells

theorem spells_small {scale : Int} (hscale : ((Numeral.digits n.natAbs).length : Int) ≤ scale)
    (hfits : fitsBits 128 ((Numeral.digits n.natAbs).length - 1 - scale) = true) :
    Spells
      (signText (n < 0) ++
        ((Numeral.digits n.natAbs).take 1 ++
          ((if (Numeral.digits n.natAbs).length = 1 then [] else '.' :: (Numeral.digits n.natAbs).drop 1) ++
            'E' :: (toString ((Numeral.digits n.natAbs).length - 1 - scale : Int)).toList))) ⟨n, scale⟩ := by
  have hne := Numeral.digits_ne_nil n.natAbs
  have hdigits : ∀ c ∈ Numeral.digits n.natAbs, c.isDigit = true := fun _ => Numeral.isDigit_of_mem_digits
  have hsum := Numeral.accumulate_digits n.natAbs
  generalize Numeral.digits n.natAbs = digits at *
  have hlength : 0 < digits.length := List.length_pos_iff.mpr hne
  obtain ⟨e, he⟩ : ∃ e, (digits.length - 1 - scale : Int) = .negSucc e := Int.eq_negSucc_of_lt_zero (by omega)
  have htail : (if digits.length = 1 then none else some (digits.drop 1)).getD [] = digits.drop 1 := by
    split
    · next hone => rw [List.drop_of_length_le (Nat.le_of_eq hone), Option.getD_none]
    · rfl
  have htailText : fractionText (if digits.length = 1 then none else some (digits.drop 1)) =
      if digits.length = 1 then [] else '.' :: digits.drop 1 := by
    split <;> rfl
  have hspells := spells_of_parts n (digits.take 1) (if digits.length = 1 then none else some (digits.drop 1))
    (some (.negSucc e)) (by simpa using hne) (fun c hc => hdigits c (List.mem_of_mem_take hc))
    (by rw [htail]; exact fun c hc => hdigits c (List.mem_of_mem_drop hc))
    (by rw [htail, List.take_append_drop, hsum]) (by rwa [← he])
  rw [htail, htailText, Option.getD_some, exponentText] at hspells
  rw [he, Numeral.toList_toString_negSucc]
  have hscaleOf : ((digits.drop 1).length - .negSucc e : Int) = scale := by
    rw [← he, List.length_drop]
    omega
  rwa [hscaleOf] at hspells

theorem spells_fraction (scale : Nat) :
    let full := List.replicate (scale + 1 - (Numeral.digits n.natAbs).length) '0' ++ Numeral.digits n.natAbs
    Spells (signText (n < 0) ++ (full.take (full.length - scale) ++ '.' :: full.drop (full.length - scale))) ⟨n, scale⟩ := by
  intro full
  have hdigits : ∀ c ∈ full, c.isDigit = true := by
    intro c hc
    rcases List.mem_append.mp hc with hc | hc
    · rw [List.eq_of_mem_replicate hc]
      rfl
    · exact Numeral.isDigit_of_mem_digits hc
  have hsum : Numeral.accumulate 0 full = n.natAbs := by
    rw [Numeral.accumulate_append, Numeral.accumulate_replicate_zero, Nat.zero_mul, Numeral.accumulate_digits]
  have hlength : scale + 1 ≤ full.length := by
    rw [List.length_append, List.length_replicate]
    omega
  have hlead : full.take (full.length - scale) ≠ [] := by
    apply List.ne_nil_of_length_pos
    rw [List.length_take]
    omega
  have hspells := spells_of_parts n (full.take (full.length - scale)) (some (full.drop (full.length - scale))) none hlead
    (fun c hc => hdigits c (List.mem_of_mem_take hc)) (fun c hc => hdigits c (List.mem_of_mem_drop hc))
    (by rw [Option.getD_some, List.take_append_drop, hsum]) rfl
  have hscaleOf : ((full.drop (full.length - scale)).length - 0 : Int) = scale := by
    rw [List.length_drop]
    omega
  rwa [Option.getD_some, Option.getD_none, hscaleOf, fractionText, exponentText, List.append_nil] at hspells

end Texts

/-- The decimal that the text of a decimal spells. Zeros behind a whole number are written out, unless there are too many of them. -/
def printed (d : Decimal) : Decimal :=
  if d.digits = 0 then ⟨0, 0⟩
  else if d.scale ≤ 0 ∧ -d.scale ≤ trailingZeroLimit then ⟨d.digits * tenTo (-d.scale).toNat, 0⟩
  else d

theorem fitsBits_of_natAbs_le {scale e : Int} (h : scaleFits scale = true) (hle : e.natAbs ≤ scale.natAbs) :
    fitsBits 128 e = true := by
  have hsmall : twoTo (64 - 1) = 9223372036854775808 := rfl
  have hlarge : twoTo (128 - 1) = 170141183460469231731687303715884105728 := rfl
  simp only [scaleFits, fitsBits, Bool.and_eq_true, decide_eq_true_eq] at h ⊢
  omega

/-- The text of a decimal has parts that stand for the printed decimal. -/
theorem spells_toText {d : Decimal} (h : scaleFits d.scale = true) : Spells d.toText.toList d.printed := by
  have hsign : (if d.digits < 0 then "-" else "").toList = Spelling.signText (d.digits < 0) := by
    by_cases hneg : d.digits < 0 <;> simp [hneg, Spelling.signText]
  rw [toText, String.toList_append, hsign, printed]
  by_cases hzero : d.digits = 0
  · rw [if_pos hzero, if_pos hzero, hzero]
    exact spells_zero
  rw [if_neg hzero, if_neg hzero]
  by_cases hwhole : d.scale ≤ 0
  · rw [if_pos hwhole]
    by_cases hshort : -d.scale ≤ trailingZeroLimit
    · rw [if_pos hshort, if_pos ⟨hwhole, hshort⟩, String.toList_ofList]
      exact spells_whole d.digits _
    · have hprinted : ¬(d.scale ≤ 0 ∧ -d.scale ≤ trailingZeroLimit) := fun hboth => hshort hboth.2
      have hscale : (-((-d.scale).toNat : Int)) = d.scale := by
        omega
      have hfits : fitsBits 128 ((-d.scale).toNat : Int) = true := fitsBits_of_natAbs_le h (by omega)
      have hspells := spells_large d.digits hfits
      rw [hscale] at hspells
      rw [if_neg hshort, if_neg hprinted, String.toList_append, String.toList_append, String.toList_ofList,
        Numeral.toList_toString, List.append_assoc]
      exact hspells
  · have hprinted : ¬(d.scale ≤ 0 ∧ -d.scale ≤ trailingZeroLimit) := fun hboth => hwhole hboth.1
    rw [if_neg hwhole, if_neg hprinted]
    by_cases hsmall : leadingZeroLimit < d.scale - (Numeral.digits d.digits.natAbs).length
    · have hlimit : leadingZeroLimit = 5 := rfl
      have hlength : 0 < (Numeral.digits d.digits.natAbs).length := List.length_pos_iff.mpr (Numeral.digits_ne_nil _)
      have hfits : fitsBits 128 ((Numeral.digits d.digits.natAbs).length - 1 - d.scale) = true :=
        fitsBits_of_natAbs_le h (by omega)
      have hspells := spells_small d.digits (by omega) hfits
      have htail : (if (Numeral.digits d.digits.natAbs).length = 1 then ""
          else "." ++ String.ofList ((Numeral.digits d.digits.natAbs).drop 1)).toList =
          if (Numeral.digits d.digits.natAbs).length = 1 then [] else '.' :: (Numeral.digits d.digits.natAbs).drop 1 := by
        split <;> simp
      rw [if_pos hsmall]
      simp only [String.toList_append, String.toList_ofList, List.append_assoc, htail]
      exact hspells
    · have hscale : (d.scale.toNat : Int) = d.scale := Int.toNat_of_nonneg (by omega)
      have hspells := spells_fraction d.digits d.scale.toNat
      rw [hscale] at hspells
      rw [if_neg hsmall]
      simp only [String.toList_append, String.toList_ofList, List.append_assoc]
      exact hspells

/-! ### The printed decimal -/

theorem scaleFits_printed {d : Decimal} (h : scaleFits d.scale = true) : scaleFits d.printed.scale = true := by
  rw [printed]
  split
  · rfl
  · split
    · rfl
    · exact h

/-- The text of a decimal is read as the printed decimal. -/
theorem ofText?_toText {d : Decimal} (h : scaleFits d.scale = true) : ofText? d.toText.toList = some d.printed :=
  (spells_toText h).ofText? (scaleFits_printed h)

theorem digitsAt_printed {d : Decimal} {scale : Int} (h : max d.scale 0 ≤ scale) :
    d.printed.digitsAt scale = d.digitsAt scale := by
  rw [printed]
  split
  · next hzero => rw [digitsAt_of_digits_eq_zero hzero, digitsAt_of_digits_eq_zero rfl]
  · split
    · next hwhole =>
      have hplaces : (scale - d.scale).toNat = (-d.scale).toNat + (scale - 0).toNat := by
        omega
      rw [digitsAt, digitsAt, hplaces, tenTo_add, Int.natCast_mul, Int.mul_assoc]
    · rfl

theorem same_of_printed_eq {a b : Decimal} (h : a.printed = b.printed) : a.same b = true := by
  have hscale : a.scale ≤ max (max a.scale b.scale) 0 ∧ b.scale ≤ max (max a.scale b.scale) 0 := by
    omega
  rw [same_iff hscale.1 hscale.2, ← digitsAt_printed (by omega), ← digitsAt_printed (d := b) (by omega), h]

theorem mul_tenTo_ne_zero {n : Int} (h : n ≠ 0) (zeros : Nat) : n * tenTo zeros ≠ 0 :=
  Int.mul_ne_zero h (Int.natCast_ne_zero.mpr (Nat.ne_of_gt (tenTo_pos zeros)))

theorem printed_of_whole {d : Decimal} (hzero : d.digits ≠ 0) (hwhole : d.scale ≤ 0 ∧ -d.scale ≤ trailingZeroLimit) :
    d.printed = ⟨d.digits * tenTo (-d.scale).toNat, 0⟩ := by
  rw [printed, if_neg hzero, if_pos hwhole]

theorem printed_printed (d : Decimal) : d.printed.printed = d.printed := by
  by_cases hzero : d.digits = 0
  · rw [show d.printed = ⟨0, 0⟩ from if_pos hzero]
    rfl
  by_cases hwhole : d.scale ≤ 0 ∧ -d.scale ≤ trailingZeroLimit
  · have hlimit : -(0 : Int) ≤ trailingZeroLimit := by
      decide
    rw [printed_of_whole hzero hwhole, printed_of_whole (mul_tenTo_ne_zero hzero _) ⟨Int.le_refl 0, hlimit⟩]
    simp [tenTo]
  · have hprinted : d.printed = d := by
      rw [printed, if_neg hzero, if_neg hwhole]
    rw [hprinted, hprinted]

theorem toText_printed (d : Decimal) : d.printed.toText = d.toText := by
  by_cases hzero : d.digits = 0
  · rw [show d.printed = ⟨0, 0⟩ from if_pos hzero]
    simp [toText, hzero]
  by_cases hwhole : d.scale ≤ 0 ∧ -d.scale ≤ trailingZeroLimit
  · have hne := mul_tenTo_ne_zero hzero (-d.scale).toNat
    have hdigits : Numeral.digits (d.digits * tenTo (-d.scale).toNat).natAbs =
        Numeral.digits d.digits.natAbs ++ List.replicate (-d.scale).toNat '0' := by
      rw [Int.natAbs_mul, Int.natAbs_natCast]
      exact Numeral.digits_mul_tenTo (Int.natAbs_pos.mpr hzero) _
    have hlimit : (0 : Int) ≤ trailingZeroLimit := by
      decide
    rw [printed_of_whole hzero hwhole, toText, toText]
    simp [mul_tenTo_neg_iff, hne, hzero, hwhole.1, hwhole.2, hdigits, hlimit]
  · rw [printed, if_neg hzero, if_neg hwhole]

end Decimal

end ObjectStore
