import Mathlib.Data.List.Forall2
import ObjectStore.Failure

/-!
# Outcomes of several steps

A step that follows another succeeds only if both do. A list of steps gives a result for every item, or the failure of one item. Steps none of which fails with a race do not do so together.
-/

namespace ObjectStore

namespace Outcome

universe u v w

variable {α : Type u} {β : Type v} {γ : Type w}

theorem map_eq_ok_iff {outcome : Outcome α} {f : α → β} {b : β} :
    outcome.map f = .ok b ↔ ∃ a, outcome = .ok a ∧ f a = b := by
  cases outcome <;> simp [Except.map]

theorem map_eq_error_iff {outcome : Outcome α} {f : α → β} {failure : Failure} :
    outcome.map f = .error failure ↔ outcome = .error failure := by
  cases outcome <;> simp [Except.map]

theorem bind_eq_ok_iff {outcome : Outcome α} {next : α → Outcome β} {b : β} :
    outcome.bind next = .ok b ↔ ∃ a, outcome = .ok a ∧ next a = .ok b := by
  cases outcome <;> simp [Except.bind]

theorem bind_eq_error_iff {outcome : Outcome α} {next : α → Outcome β} {failure : Failure} :
    outcome.bind next = .error failure ↔
      outcome = .error failure ∨ ∃ a, outcome = .ok a ∧ next a = .error failure := by
  cases outcome <;> simp [Except.bind]

theorem exists_ok {outcome : Outcome α} (h : ∀ failure, outcome ≠ .error failure) : ∃ a, outcome = .ok a := by
  cases outcome with
  | ok a => exact ⟨a, rfl⟩
  | error failure => exact absurd rfl (h failure)

theorem exists_error_iff {outcome : Outcome α} : (∃ failure, outcome = .error failure) ↔ ¬∃ a, outcome = .ok a := by
  cases outcome with
  | ok a => exact iff_of_false nofun (not_not_intro ⟨a, rfl⟩)
  | error failure => exact iff_of_true ⟨failure, rfl⟩ nofun

/-! ### Lists -/

variable {α β : Type v} {f : α → Outcome β} {items : List α} {results : List β} {failure : Failure}

theorem mapM_cons (f : α → Outcome β) (item : α) (items : List α) :
    (item :: items).mapM f = (f item).bind fun first => (items.mapM f).bind fun rest => .ok (first :: rest) :=
  List.mapM_cons

theorem mapM_eq_ok_iff : items.mapM f = .ok results ↔ List.Forall₂ (fun item result => f item = .ok result) items results := by
  induction items generalizing results with
  | nil =>
    rw [List.mapM_nil, List.forall₂_nil_left_iff]
    exact ⟨fun h => (Except.ok.inj h).symm, fun h => h ▸ rfl⟩
  | cons item items ih =>
    simp only [mapM_cons, bind_eq_ok_iff, Except.ok.injEq, List.forall₂_cons_left_iff, ih]
    constructor
    · rintro ⟨first, hfirst, rest, hrest, rfl⟩
      exact ⟨first, rest, hfirst, hrest, rfl⟩
    · rintro ⟨first, rest, hfirst, hrest, rfl⟩
      exact ⟨first, hfirst, rest, hrest, rfl⟩

/-- Every item of a list with results has one of them. -/
theorem exists_of_mapM_eq_ok (h : items.mapM f = .ok results) {item : α} (hitem : item ∈ items) :
    ∃ result ∈ results, f item = .ok result := by
  rw [mapM_eq_ok_iff] at h
  induction h with
  | nil => cases hitem
  | cons hfirst _ ih =>
    rcases List.mem_cons.mp hitem with rfl | hitem
    · exact ⟨_, List.mem_cons_self, hfirst⟩
    · obtain ⟨result, hresult, hfound⟩ := ih hitem
      exact ⟨result, List.mem_cons_of_mem _ hresult, hfound⟩

theorem exists_item_of_mapM_eq_ok (h : items.mapM f = .ok results) {result : β} (hresult : result ∈ results) :
    ∃ item ∈ items, f item = .ok result := by
  rw [mapM_eq_ok_iff] at h
  induction h with
  | nil => cases hresult
  | cons hfirst _ ih =>
    rcases List.mem_cons.mp hresult with rfl | hresult
    · exact ⟨_, List.mem_cons_self, hfirst⟩
    · obtain ⟨item, hitem, hfound⟩ := ih hresult
      exact ⟨item, List.mem_cons_of_mem _ hitem, hfound⟩

theorem exists_of_mapM_eq_error (h : items.mapM f = .error failure) : ∃ item ∈ items, f item = .error failure := by
  induction items with
  | nil => cases h
  | cons item items ih =>
    rw [mapM_cons, bind_eq_error_iff] at h
    rcases h with hfirst | ⟨first, -, hrest⟩
    · exact ⟨item, List.mem_cons_self, hfirst⟩
    · rcases bind_eq_error_iff.mp hrest with hrest | ⟨_, -, hnever⟩
      · obtain ⟨other, hother, hfails⟩ := ih hrest
        exact ⟨other, List.mem_cons_of_mem _ hother, hfails⟩
      · cases hnever

theorem exists_mapM_eq_ok (h : ∀ item ∈ items, ∃ result, f item = .ok result) : ∃ results, items.mapM f = .ok results := by
  apply exists_ok
  intro failure hfails
  obtain ⟨item, hitem, hfailure⟩ := exists_of_mapM_eq_error hfails
  obtain ⟨result, hresult⟩ := h item hitem
  rw [hresult] at hfailure
  cases hfailure

/-- What a second pass makes of the results of a first one, item by item. -/
theorem mapM_mapM {γ : Type v} {g : β → Outcome γ} {h : α → γ}
    (hround : ∀ item ∈ items, ∀ result, f item = .ok result → g result = .ok (h item))
    (hresults : items.mapM f = .ok results) : results.mapM g = .ok (items.map h) := by
  rw [mapM_eq_ok_iff] at hresults ⊢
  induction hresults with
  | nil => exact List.Forall₂.nil
  | cons hfirst hrest ih =>
    refine List.Forall₂.cons (hround _ List.mem_cons_self _ hfirst) (ih ?_)
    exact fun item hitem => hround item (List.mem_cons_of_mem _ hitem)

/-! ### Failures without a race -/

/-- Whether an outcome, if it is a failure, is one that no further attempt is made after. -/
def Raceless {α : Type u} (outcome : Outcome α) : Prop :=
  ∀ failure, outcome = .error failure → failure.race? = none

namespace Raceless

variable {α β : Type u} {outcome : Outcome α}

theorem ok (a : α) : Raceless (.ok a) := nofun

theorem error {failure : Failure} (h : failure.race? = none) : Raceless (.error failure : Outcome α) := by
  rintro _ ⟨⟩
  exact h

theorem map (h : Raceless outcome) (f : α → β) : Raceless (outcome.map f) :=
  fun failure hfailed => h failure (map_eq_error_iff.mp hfailed)

theorem bind {next : α → Outcome β} (h : Raceless outcome) (hnext : ∀ a, Raceless (next a)) : Raceless (outcome >>= next) := by
  intro failure hfailed
  rcases bind_eq_error_iff.mp hfailed with hfirst | ⟨a, -, hsecond⟩
  · exact h failure hfirst
  · exact hnext a failure hsecond

theorem foldlM {step : β → α → Outcome β} (h : ∀ state item, Raceless (step state item)) (items : List α) (start : β) :
    Raceless (items.foldlM step start) := by
  induction items generalizing start with
  | nil => exact ok start
  | cons item items ih =>
    rw [List.foldlM_cons]
    exact (h start item).bind ih

end Raceless

end Outcome

end ObjectStore
