import ObjectStore.Proofs.Arithmetic
import ObjectStore.Proofs.Value.Numbers

/-!
# Counters

A field that is only ever incremented, only multiplied, or only raised or lowered to an extreme. On integers and decimals such a counter loses nothing: after any number of updates its value is the exact sum, product or extreme, whether it was kept as an integer all along or had to widen to a decimal on the way. As the number does not depend on the order of the updates, writers that count the same things reach loosely equal values in whatever order they come.
-/

namespace ObjectStore

/-- What a counter does with a number that it is given. -/
inductive Counter where
  | increment | multiply | maximum | minimum

open Update (present)

namespace Counter

def update : Counter → Value → Update
  | increment, operand => .increment operand
  | multiply, operand => .multiply operand
  | maximum, operand => .max operand
  | minimum, operand => .min operand

/-- A counter is updated by its operands one after another. -/
def run (counter : Counter) (operands : List Value) (current : Option Value) : Outcome (Option Value) :=
  operands.foldlM (fun current operand => (counter.update operand).apply current) current

/-- What the numbers given to a counter come to. Sums and products start from zero where there is nothing to start from. -/
def Totals : Counter → Option ℚ → List ℚ → ℚ → Prop
  | increment, start, numbers, total => total = start.getD 0 + numbers.sum
  | multiply, start, numbers, total => total = start.getD 0 * numbers.prod
  | maximum, start, numbers, total => IsGreatest {p | start = some p ∨ p ∈ numbers} total
  | minimum, start, numbers, total => IsLeast {p | start = some p ∨ p ∈ numbers} total

/-- Whether a counter of integers stays in their range after each of its updates. -/
def InRange (counter : Counter) (start : Option ℚ) (numbers : List ℚ) : Prop :=
  ∀ seen, seen ≠ [] → seen <+: numbers → ∃ word : Int64, counter.Totals start seen word.toInt

/-! ### Totals -/

/-- The number of a counter after one update. -/
def combine : Counter → Option ℚ → ℚ → ℚ
  | increment, start, p => start.getD 0 + p
  | multiply, start, p => start.getD 0 * p
  | maximum, start, p => start.elim p (max · p)
  | minimum, start, p => start.elim p (min · p)

variable {counter : Counter}

section Totals

variable {start : Option ℚ} {numbers : List ℚ} {p total : ℚ}

theorem isGreatest_insert_max {α : Type} [LinearOrder α] {a b greatest : α} {values : Set α} :
    IsGreatest (insert (max a b) values) greatest ↔ IsGreatest (insert a (insert b values)) greatest := by
  simp only [IsGreatest, upperBounds_insert, Set.mem_insert_iff, Set.mem_inter_iff, Set.mem_Ici, max_le_iff, and_assoc]
  refine and_congr_left fun ⟨hleft, hright, _⟩ => ?_
  rw [← or_assoc]
  refine or_congr_left ⟨?_, ?_⟩
  · intro h
    rcases max_choice a b with ha | hb
    · exact Or.inl (h.trans ha)
    · exact Or.inr (h.trans hb)
  · rintro (rfl | rfl)
    · exact (max_eq_left hright).symm
    · exact (max_eq_right hleft).symm

theorem setOf_some : {q | some p = some q ∨ q ∈ numbers} = insert p {q | q ∈ numbers} := by
  ext q
  simp [eq_comm]

theorem setOf_cons : {q | start = some q ∨ q ∈ p :: numbers} = insert p {q | start = some q ∨ q ∈ numbers} := by
  ext q
  simp [or_left_comm]

/-- What is left to count starts from what has been counted. -/
theorem totals_cons :
    counter.Totals start (p :: numbers) total ↔ counter.Totals (some (counter.combine start p)) numbers total := by
  cases counter with
  | increment => simp [Totals, combine, add_assoc]
  | multiply => simp [Totals, combine, mul_assoc]
  | maximum =>
    rw [Totals, Totals, setOf_cons, setOf_some]
    cases start with
    | none => simp [combine]
    | some first =>
      rw [setOf_some, Set.insert_comm]
      exact isGreatest_insert_max.symm
  | minimum =>
    rw [Totals, Totals, setOf_cons, setOf_some]
    cases start with
    | none => simp [combine]
    | some first =>
      rw [setOf_some, Set.insert_comm]
      -- The least number is the greatest one in the order turned around.
      exact (isGreatest_insert_max (α := ℚᵒᵈ)).symm

theorem totals_nil : counter.Totals (some p) [] total ↔ total = p := by
  have hset : {q | some p = some q ∨ q ∈ []} = {p} := by
    simp
  cases counter with
  | increment | multiply => simp [Totals]
  | maximum =>
    rw [Totals, hset]
    exact ⟨fun h => h.unique isGreatest_singleton, fun h => h ▸ isGreatest_singleton⟩
  | minimum =>
    rw [Totals, hset]
    exact ⟨fun h => h.unique isLeast_singleton, fun h => h ▸ isLeast_singleton⟩

theorem Totals.unique {other : ℚ} (h : counter.Totals start numbers total) (hother : counter.Totals start numbers other) :
    total = other := by
  cases counter with
  | increment | multiply => exact h.trans hother.symm
  | maximum => exact IsGreatest.unique h hother
  | minimum => exact IsLeast.unique h hother

theorem totals_perm {reordered : List ℚ} (h : reordered.Perm numbers) :
    counter.Totals start reordered total ↔ counter.Totals start numbers total := by
  cases counter with
  | increment => rw [Totals, Totals, h.sum_eq]
  | multiply => rw [Totals, Totals, h.prod_eq]
  | maximum | minimum => simp only [Totals, h.mem_iff]

theorem inRange_nil : counter.InRange start [] := fun _ hsome hseen => absurd (List.prefix_nil.mp hseen) hsome

theorem inRange_cons :
    counter.InRange start (p :: numbers) ↔
      (∃ word : Int64, counter.combine start p = word.toInt) ∧ counter.InRange (some (counter.combine start p)) numbers := by
  simp only [InRange, List.prefix_cons_iff]
  constructor
  · intro h
    constructor
    · obtain ⟨word, hword⟩ := h [p] (List.cons_ne_nil p []) (Or.inr ⟨[], rfl, List.nil_prefix⟩)
      exact ⟨word, (totals_nil.mp (totals_cons.mp hword)).symm⟩
    · intro seen _ hseen
      obtain ⟨word, hword⟩ := h (p :: seen) (List.cons_ne_nil p seen) (Or.inr ⟨seen, rfl, hseen⟩)
      exact ⟨word, totals_cons.mp hword⟩
  · rintro ⟨⟨word, hword⟩, h⟩ seen hsome (rfl | ⟨later, rfl, hlater⟩)
    · exact absurd rfl hsome
    · cases later with
      | nil => exact ⟨word, totals_cons.mpr (totals_nil.mpr hword.symm)⟩
      | cons q rest =>
        obtain ⟨last, hlast⟩ := h _ (List.cons_ne_nil q rest) hlater
        exact ⟨last, totals_cons.mpr hlast⟩

end Totals

/-! ### Updates -/

/-- What one update makes of a number, or of nothing. -/
structure Steps (counter : Counter) (old : Option Value) (operand result : Value) : Prop where
  isExact : result.isExact = true
  amount : result.amount = counter.combine (old.map Value.amount) operand.amount
  integer : (∀ value ∈ old, value.kind = .integer) → operand.kind = .integer →
    (∃ word : Int64, result.amount = word.toInt) → result.kind = .integer

section Step

variable {current operand : Value} (hcurrent : current.isExact = true) (hoperand : operand.isExact = true)

include hcurrent hoperand

theorem exists_arithmetic (counter : Counter) (op : Arithmetic) (hcombine : ∀ p q, counter.combine (some p) q = op.onRat p q) :
    ∃ result, op.apply current operand = .ok result ∧ counter.Steps (some current) operand result := by
  obtain ⟨result, hresult, hexact, hamount, hinteger⟩ := op.exists_apply_exact hcurrent hoperand
  exact ⟨result, hresult, hexact, hamount.trans (hcombine _ _).symm, fun hkind => hinteger (hkind current rfl)⟩

theorem steps_keepIf {wanted : Ordering → Bool} (hcombine : ∀ p q, counter.combine (some p) q = if wanted (cmp p q) then p else q) :
    counter.Steps (some current) operand (Update.keepIf wanted current operand) := by
  have horder := Value.compare?_of_rational? (Value.rational?_of_isExact hcurrent) (Value.rational?_of_isExact hoperand)
  have hamount := hcombine current.amount operand.amount
  simp only [Update.keepIf, horder]
  split
  · next hkept =>
    rw [if_pos hkept] at hamount
    exact ⟨hcurrent, hamount.symm, fun hkind _ _ => hkind current rfl⟩
  · next hleft =>
    rw [if_neg hleft] at hamount
    exact ⟨hoperand, hamount.symm, fun _ hkind _ => hkind⟩

theorem exists_applyTo_some :
    ∃ result, (counter.update operand).applyTo (some current) = .ok (some result) ∧ counter.Steps (some current) operand result := by
  cases counter with
  | increment =>
    obtain ⟨result, hresult, hsteps⟩ := exists_arithmetic hcurrent hoperand .increment .add fun _ _ => rfl
    exact ⟨result, Outcome.map_eq_ok_iff.mpr ⟨result, hresult, rfl⟩, hsteps⟩
  | multiply =>
    obtain ⟨result, hresult, hsteps⟩ := exists_arithmetic hcurrent hoperand .multiply .multiply fun _ _ => rfl
    exact ⟨result, Outcome.map_eq_ok_iff.mpr ⟨result, hresult, rfl⟩, hsteps⟩
  | maximum =>
    refine ⟨_, rfl, steps_keepIf hcurrent hoperand fun p q => ?_⟩
    rcases lt_or_ge p q with hlt | hle
    · simp [combine, hlt, hlt.le]
    · simp [combine, hle, not_lt.mpr hle]
  | minimum =>
    refine ⟨_, rfl, steps_keepIf hcurrent hoperand fun p q => ?_⟩
    rcases le_or_gt p q with hle | hlt
    · simp [combine, hle]
    · simp [combine, hlt.le, not_le.mpr hlt]

end Step

theorem zeroLike_spec {operand : Value} (hoperand : operand.isExact = true) :
    (Update.zeroLike operand).isExact = true ∧ (Update.zeroLike operand).amount = 0 ∧
      (operand.kind = .integer → (Update.zeroLike operand).kind = .integer) := by
  cases operand with
  | integer n => exact ⟨rfl, Int.cast_zero, fun _ => rfl⟩
  | decimal d => exact ⟨rfl, Decimal.toRat_ofInt 0, nofun⟩
  | _ => cases hoperand

theorem exists_applyTo_none {operand : Value} (hoperand : operand.isExact = true) :
    ∃ result, (counter.update operand).applyTo none = .ok (some result) ∧ counter.Steps none operand result := by
  have hnumeric : Arithmetic.operand operand = .ok operand :=
    Arithmetic.operand_eq_ok_iff.mpr ⟨Value.isNumeric_of_rational? (Value.rational?_of_isExact hoperand), rfl⟩
  cases counter with
  | increment =>
    exact ⟨operand, Outcome.map_eq_ok_iff.mpr ⟨operand, hnumeric, rfl⟩, hoperand, (zero_add _).symm, fun _ hkind _ => hkind⟩
  | multiply =>
    obtain ⟨hzero, hamount, hkind⟩ := zeroLike_spec hoperand
    obtain ⟨result, hresult, hsteps⟩ := exists_arithmetic hzero hoperand .multiply .multiply fun _ _ => rfl
    refine ⟨result, ?_, hsteps.isExact, ?_, ?_⟩
    · exact Outcome.bind_eq_ok_iff.mpr ⟨operand, hnumeric, Outcome.map_eq_ok_iff.mpr ⟨result, hresult, rfl⟩⟩
    · rw [hsteps.amount, Option.map_some, hamount]
      rfl
    · intro _ hinteger
      exact hsteps.integer (fun value hvalue => Option.some.inj hvalue ▸ hkind hinteger) hinteger
  | maximum | minimum => exact ⟨operand, rfl, hoperand, rfl, fun _ hkind _ => hkind⟩

/-- A counter takes every integer and decimal. -/
theorem exists_apply (counter : Counter) {current : Option Value} (hcurrent : ∀ value ∈ present current, value.isExact = true)
    {operand : Value} (hoperand : operand.isExact = true) :
    ∃ result, (counter.update operand).apply current = .ok (some result) ∧ counter.Steps (present current) operand result := by
  show ∃ result, (counter.update operand).applyTo (present current) = _ ∧ _
  cases hpresent : present current with
  | none => exact exists_applyTo_none hoperand
  | some value => exact exists_applyTo_some (hcurrent value hpresent) hoperand

/-! ### Runs of updates -/

/-- What a counter has come to after some operands. -/
structure Reaches (counter : Counter) (old : Option Value) (operands : List Value) (result : Value) : Prop where
  isExact : result.isExact = true
  totals : counter.Totals (old.map Value.amount) (operands.map Value.amount) result.amount
  integer : (∀ value ∈ old, value.kind = .integer) → (∀ operand ∈ operands, operand.kind = .integer) →
    counter.InRange (old.map Value.amount) (operands.map Value.amount) → result.kind = .integer

theorem present_of_isExact {value : Value} (h : value.isExact = true) : present (some value) = some value := by
  cases value <;> first | rfl | cases h

variable {old : Option Value} {operand result final : Value} {operands : List Value}

theorem Steps.reaches (h : counter.Steps old operand result) : counter.Reaches old [operand] result where
  isExact := h.isExact
  totals := totals_cons.mpr (totals_nil.mpr h.amount)
  integer := by
    intro hold hoperands hrange
    obtain ⟨⟨word, hword⟩, -⟩ := inRange_cons.mp hrange
    exact h.integer hold (hoperands operand List.mem_cons_self) ⟨word, h.amount.trans hword⟩

theorem Reaches.cons (hfirst : counter.Steps old operand result) (hrest : counter.Reaches (some result) operands final) :
    counter.Reaches old (operand :: operands) final where
  isExact := hrest.isExact
  totals := totals_cons.mpr (hfirst.amount ▸ hrest.totals)
  integer := by
    intro hold hoperands hrange
    obtain ⟨⟨word, hword⟩, hlater⟩ := inRange_cons.mp hrange
    have hkind := hfirst.integer hold (hoperands operand List.mem_cons_self) ⟨word, hfirst.amount.trans hword⟩
    refine hrest.integer (fun value hvalue => Option.some.inj hvalue ▸ hkind) ?_ ?_
    · exact fun later hmem => hoperands later (List.mem_cons_of_mem _ hmem)
    · rw [Option.map_some, hfirst.amount]
      exact hlater

theorem exists_run (counter : Counter) {current : Option Value} (hcurrent : ∀ value ∈ present current, value.isExact = true)
    (hsome : operands ≠ []) (hoperands : ∀ operand ∈ operands, operand.isExact = true) :
    ∃ final, counter.run operands current = .ok (some final) ∧ counter.Reaches (present current) operands final := by
  -- Once there is a result, the rest of the run starts from it.
  induction operands generalizing current with
  | nil => exact absurd rfl hsome
  | cons operand rest ih =>
    obtain ⟨result, hresult, hsteps⟩ := exists_apply counter hcurrent (hoperands operand List.mem_cons_self)
    have hrun : counter.run (operand :: rest) current = counter.run rest (some result) := by
      rw [run, List.foldlM_cons, hresult]
      rfl
    rw [hrun]
    cases rest with
    | nil => exact ⟨result, rfl, hsteps.reaches⟩
    | cons next later =>
      have hpresent := present_of_isExact hsteps.isExact
      have hresult' : ∀ value ∈ present (some result), value.isExact = true := by
        rw [hpresent]
        rintro value ⟨⟩
        exact hsteps.isExact
      obtain ⟨final, hfinal, hreaches⟩ := ih hresult' (List.cons_ne_nil next later) fun operand hoperand =>
        hoperands operand (List.mem_cons_of_mem _ hoperand)
      exact ⟨final, hfinal, .cons hsteps (hpresent ▸ hreaches)⟩

end Counter

example :
    Counter.increment.run [.integer 1, .decimal ⟨5, 1⟩] (some (.integer 9223372036854775807)) =
      .ok (some (.decimal ⟨92233720368547758085, 1⟩)) := rfl

end ObjectStore
