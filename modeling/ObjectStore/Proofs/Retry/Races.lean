import Mathlib.Order.Bounds.Defs
import ObjectStore.Retry

/-!
# The calls that retrying makes

An operation could be called again and again, each time with the next number and in the state that the call before it left. Retrying makes the first of these calls only, up to the first one that is final: it succeeds, or it fails otherwise than with one of the races, or it uses up the limit. What this call ends in is the result. If there is a limit, some call is final. If there is none, it may be that no call is, and then calls are made for as long as patience lasts.
-/

namespace ObjectStore

variable {σ α : Type} {races : List Race}

theorem Failure.isOneOf_eq_true_iff {failure : Failure} :
    failure.isOneOf races = true ↔ ∃ race ∈ races, failure.race? = some race := by
  rw [Failure.isOneOf]
  cases failure.race? with
  | none => simp
  | some race => simp

/-- Whether an outcome is a failure with one of the races. -/
def Outcome.Lost (races : List Race) (outcome : Outcome α) : Prop := ∃ failure, outcome = .error failure ∧ failure.isOneOf races = true

/-! ### One call -/

section Call

variable {operation : Nat → StateM σ (Outcome α)} {number : Nat} {state : σ}

theorem run_retryFrom (races : List Race) (operation : Nat → StateM σ (Outcome α)) (remaining number : Nat) (state : σ) :
    (retryFrom races operation (remaining + 1) number).run state =
      match (operation number).run state with
      | (.ok a, after) => (.ok a, after)
      | (.error failure, after) =>
        (if failure.isOneOf races then retryFrom races operation remaining (number + 1) else pure (.error failure)).run after := by
  rw [retryFrom, StateT.run_bind]
  rcases (operation number).run state with ⟨outcome, after⟩
  cases outcome <;> rfl

theorem run_retryFrom_of_not_lost (h : ¬((operation number).run state).1.Lost races) (remaining : Nat) :
    (retryFrom races operation remaining number).run state = (operation number).run state := by
  cases remaining with
  | zero => rfl
  | succ remaining =>
    rw [run_retryFrom]
    rcases hcall : (operation number).run state with ⟨outcome, after⟩
    rw [hcall] at h
    cases outcome with
    | ok a => rfl
    | error failure =>
      have hother : ¬failure.isOneOf races = true := fun hrace => h ⟨failure, rfl, hrace⟩
      simp only [if_neg hother]
      rfl

theorem run_retryFrom_of_lost (h : ((operation number).run state).1.Lost races) (remaining : Nat) :
    (retryFrom races operation (remaining + 1) number).run state =
      (retryFrom races operation remaining (number + 1)).run ((operation number).run state).2 := by
  obtain ⟨failure, hfailed, hrace⟩ := h
  rw [run_retryFrom]
  rcases hcall : (operation number).run state with ⟨outcome, after⟩
  rw [hcall] at hfailed
  cases hfailed
  simp only [if_pos hrace]

end Call

/-! ### All calls -/

namespace Calls

section

variable (operation : Nat → StateM σ (Outcome α)) (start : σ)

/-- The state in which the call with a number is made, once the calls with all smaller numbers were. -/
def state : Nat → σ
  | 0 => start
  | number + 1 => ((operation number).run (state number)).2

/-- What the call with a number ends in. -/
def outcome (number : Nat) : Outcome α := ((operation number).run (state operation start number)).1

end

variable {operation : Nat → StateM σ (Outcome α)} {start : σ} {limit : Option Nat} {patience last : Nat}

/-- From one call on, calls that lose a race are followed by the next, up to one that loses none or that is the last to remain. -/
theorem run_retryFrom_state {remaining number : Nat} (hle : number ≤ last) (hremaining : last ≤ number + remaining)
    (hlost : ∀ earlier, number ≤ earlier → earlier < last → (outcome operation start earlier).Lost races)
    (hlast : last = number + remaining ∨ ¬(outcome operation start last).Lost races) :
    (retryFrom races operation remaining number).run (state operation start number) =
      (outcome operation start last, state operation start (last + 1)) := by
  induction remaining generalizing number with
  | zero =>
    -- the only call that remains is made without a look at its outcome
    obtain rfl : last = number := Nat.le_antisymm hremaining hle
    rfl
  | succ remaining ih =>
    rcases Nat.eq_or_lt_of_le hle with rfl | hlt
    · have hfinal : ¬(outcome operation start number).Lost races := hlast.resolve_left (by omega)
      exact run_retryFrom_of_not_lost hfinal (remaining + 1)
    · rw [run_retryFrom_of_lost (hlost number (Nat.le_refl _) hlt)]
      refine ih hlt (by omega) (fun earlier hearlier => hlost earlier (Nat.le_of_succ_le hearlier)) ?_
      exact hlast.imp_left fun heq => heq.trans (by omega)

theorem run_retryRaces (hremaining : last ≤ limit.getD patience - 1)
    (hlost : ∀ earlier < last, (outcome operation start earlier).Lost races)
    (hlast : last = limit.getD patience - 1 ∨ ¬(outcome operation start last).Lost races) :
    (retryRaces races limit patience operation).run start =
      (outcome operation start last, state operation start (last + 1)) := by
  rw [← Nat.zero_add (limit.getD patience - 1)] at hremaining hlast
  exact run_retryFrom_state (Nat.zero_le last) hremaining (fun earlier _ => hlost earlier) hlast

/-- The operation that also notes the number of every call. -/
def noted (operation : Nat → StateM σ (Outcome α)) (number : Nat) : StateM (σ × List Nat) (Outcome α) :=
  modifyGet fun noting =>
    let called := (operation number).run noting.1
    (called.1, called.2, noting.2 ++ [number])

theorem state_noted (number : Nat) : state (noted operation) (start, []) number = (state operation start number, List.range number) := by
  induction number with
  | zero => rfl
  | succ number ih =>
    rw [List.range_succ, state, ih]
    rfl

theorem outcome_noted (number : Nat) : outcome (noted operation) (start, []) number = outcome operation start number := by
  rw [outcome, state_noted]
  rfl

/-! ### The last call -/

/-- Whether no further call follows one with a number, counted from zero, and an outcome. -/
inductive Final (races : List Race) (limit : Option Nat) (number : Nat) : Outcome α → Prop where
  | succeeded (a : α) : Final races limit number (.ok a)
  | failed {failure : Failure} (hother : ∀ race ∈ races, failure.race? ≠ some race) : Final races limit number (.error failure)
  | limited {outcome : Outcome α} {most : Nat} (hlimit : limit = some most) (hmost : most ≤ number + 1) :
    Final races limit number outcome

theorem final_iff {number : Nat} {outcome : Outcome α} :
    Final races limit number outcome ↔ ¬outcome.Lost races ∨ ∃ most, limit = some most ∧ most ≤ number + 1 := by
  constructor
  · rintro (a | ⟨hother⟩ | ⟨hlimit, hmost⟩)
    · exact .inl nofun
    · refine .inl ?_
      rintro ⟨_, ⟨⟩, hrace⟩
      obtain ⟨race, hrace, hsame⟩ := Failure.isOneOf_eq_true_iff.mp hrace
      exact hother race hrace hsame
    · exact .inr ⟨_, hlimit, hmost⟩
  · rintro (hlost | ⟨most, hlimit, hmost⟩)
    · cases outcome with
      | ok a => exact .succeeded a
      | error failure =>
        exact .failed fun race hrace hsame => hlost ⟨failure, rfl, Failure.isOneOf_eq_true_iff.mpr ⟨race, hrace, hsame⟩⟩
    · exact .limited hlimit hmost

theorem not_final_iff {number : Nat} {outcome : Outcome α} :
    ¬Final races limit number outcome ↔ outcome.Lost races ∧ ∀ most, limit = some most → number + 1 < most := by
  rw [final_iff, not_or, Classical.not_not, not_exists]
  refine and_congr_right fun _ => forall_congr' fun most => ?_
  rw [not_and, Nat.not_le]

/-- Retrying calls an operation with all numbers up to a last one, in turn and once each. It ends as the last call does, in the state that this call leaves. -/
structure EndsWith (races : List Race) (limit : Option Nat) (patience : Nat) (operation : Nat → StateM σ (Outcome α)) (start : σ)
    (last : Nat) : Prop where
  result : (retryRaces races limit patience operation).run start =
    (outcome operation start last, state operation start (last + 1))
  numbers : ((retryRaces races limit patience (noted operation)).run (start, [])).2.2 = List.range (last + 1)

theorem EndsWith.of_lost (hremaining : last ≤ limit.getD patience - 1)
    (hlost : ∀ earlier < last, (outcome operation start earlier).Lost races)
    (hlast : last = limit.getD patience - 1 ∨ ¬(outcome operation start last).Lost races) :
    EndsWith races limit patience operation start last where
  result := run_retryRaces hremaining hlost hlast
  numbers := by
    rw [run_retryRaces hremaining, state_noted]
    · intro earlier hearlier
      rw [outcome_noted]
      exact hlost earlier hearlier
    · rwa [outcome_noted]

theorem EndsWith.of_isLeast (h : IsLeast {number | Final races limit number (outcome operation start number)} last)
    (hpatience : limit = none → last < patience) : EndsWith races limit patience operation start last := by
  have hearlier : ∀ earlier < last, (outcome operation start earlier).Lost races ∧ ∀ most, limit = some most → earlier + 1 < most :=
    fun earlier hlt => not_final_iff.mp fun hfinal => Nat.not_le_of_lt hlt (h.2 hfinal)
  have hremaining : last ≤ limit.getD patience - 1 := by
    cases limit with
    | none => exact Nat.le_sub_one_of_lt (hpatience rfl)
    | some most =>
      -- the limit says nothing about the first call, and the call before any other last one did not use it up
      cases last with
      | zero => exact Nat.zero_le _
      | succ before => exact Nat.le_sub_one_of_lt ((hearlier before (Nat.lt_succ_self before)).2 most rfl)
  refine .of_lost hremaining (fun earlier hlt => (hearlier earlier hlt).1) ?_
  rcases final_iff.mp h.1 with hlost | ⟨most, rfl, hmost⟩
  · exact .inr hlost
  · exact .inl (Nat.le_antisymm hremaining (Nat.sub_le_of_le_add hmost))

/-- An operation is called with the numbers from zero on, up to the first call that is final, and its outcome is the result. Where no call is final there is no limit, and all calls are made that patience allows. -/
theorem retried_until_final (races : List Race) (limit : Option Nat) (operation : Nat → StateM σ (Outcome α)) (start : σ) :
    (∀ last, IsLeast {number | Final races limit number (outcome operation start number)} last →
      ∀ patience, (limit = none → last < patience) → EndsWith races limit patience operation start last) ∧
    ((∀ number, ¬Final races limit number (outcome operation start number)) →
      limit = none ∧ ∀ patience, EndsWith races limit (patience + 1) operation start patience) := by
  refine ⟨fun last hlast patience hpatience => .of_isLeast hlast hpatience, fun hnever => ?_⟩
  have hlimit : limit = none := by
    refine Option.eq_none_iff_forall_ne_some.mpr fun most hlimit => ?_
    exact hnever most (.limited hlimit (Nat.le_succ most))
  subst hlimit
  exact ⟨rfl, fun patience => .of_lost (Nat.le_refl patience) (fun earlier _ => (not_final_iff.mp (hnever earlier)).1) (.inl rfl)⟩

/-- Counts its calls, and loses a race in each, from the third on to a conflict. -/
def conflicting (number : Nat) : StateM Nat (Outcome Unit) :=
  modifyGet fun calls => (.error (.backend (some (if number < 2 then .duplicateTable else .conflict)) ""), calls + 1)

/-- If conflicts are no reason to go on, the third call is the last, and otherwise there is none. -/
theorem conflicting_retried :
    (IsLeast {number | Final [.duplicateTable] none number (outcome conflicting 0 number)} 2 ∧
      EndsWith [.duplicateTable] none 1000 conflicting 0 2) ∧
    (∀ number, ¬Final [.duplicateTable, .conflict] none number (outcome conflicting 0 number)) ∧
      EndsWith [.duplicateTable, .conflict] none (999 + 1) conflicting 0 999 := by
  have hthird : IsLeast {number | Final [.duplicateTable] none number (outcome conflicting 0 number)} 2 := by
    refine ⟨.failed (by decide), fun number hfinal => Nat.le_of_not_lt fun hlt => not_final_iff.mpr ?_ hfinal⟩
    refine ⟨⟨_, rfl, ?_⟩, nofun⟩
    rw [if_pos hlt]
    rfl
  have hnever : ∀ number, ¬Final [.duplicateTable, .conflict] none number (outcome conflicting 0 number) := by
    refine fun number => not_final_iff.mpr ⟨⟨_, rfl, ?_⟩, nofun⟩
    split <;> rfl
  exact ⟨⟨hthird, (retried_until_final [.duplicateTable] none conflicting 0).1 2 hthird 1000 fun _ => by decide⟩, hnever,
    ((retried_until_final [.duplicateTable, .conflict] none conflicting 0).2 hnever).2 999⟩

/-- A limit of no calls is one of one call. -/
example :
    let operation : Nat → StateM Nat (Outcome Unit) := fun _ => modifyGet fun calls => (.error (.backend (some .conflict) ""), calls + 1)
    (retryRaces [.conflict] (some 0) 0 operation).run 0 = (.error (.backend (some .conflict) ""), 1) := rfl

end Calls

end ObjectStore
