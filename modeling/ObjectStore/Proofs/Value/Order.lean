import ObjectStore.Value.Order

/-!
# Orders and equalities that tell values apart

The orders of dates, times of day and instants put two of them at the same place only when they are one and the same. A time of day is compared by its second of the day, which determines its hour, minute and second because none of them runs over. Objects are equal when every field of the one has an equal field of its name in the other.
-/

namespace ObjectStore

theorem Date.compare_eq_iff (a b : Date) : a.compare b = .eq ↔ a = b := by
  constructor
  · intro h
    obtain ⟨hyear, hmonth, hday⟩ : a.year = b.year ∧ a.month = b.month ∧ a.day = b.day := by
      simpa [Date.compare] using h
    cases a
    cases b
    simp only [Date.mk.injEq]
    exact ⟨hyear, hmonth, hday⟩
  · rintro rfl
    simp [Date.compare]

theorem TimeOfDay.compare_eq_iff (a b : TimeOfDay) : a.compare b = .eq ↔ a = b := by
  constructor
  · intro h
    obtain ⟨hsecond, hnanos⟩ : a.secondOfDay = b.secondOfDay ∧ a.nanos = b.nanos := by
      simpa [TimeOfDay.compare] using h
    obtain ⟨hour, minute, second, nanos, valid⟩ := a
    obtain ⟨hour', minute', second', nanos', valid'⟩ := b
    simp only [Calendar.isTimeOfDay, Bool.and_eq_true, decide_eq_true_eq] at valid valid'
    simp only [TimeOfDay.secondOfDay] at hsecond
    simp only [TimeOfDay.mk.injEq]
    refine ⟨?_, ?_, ?_, hnanos⟩ <;> omega
  · rintro rfl
    simp [TimeOfDay.compare]

theorem Instant.compare_eq_iff (a b : Instant) : a.compare b = .eq ↔ a = b := by
  constructor
  · intro h
    obtain ⟨hseconds, hnanos⟩ : a.seconds = b.seconds ∧ a.nanos = b.nanos := by
      simpa [Instant.compare] using h
    cases a
    cases b
    simp only [Instant.mk.injEq]
    exact ⟨hseconds, hnanos⟩
  · rintro rfl
    simp [Instant.compare]

namespace Value

/-- Apart from numbers, only one value is the same as a scalar. -/
theorem eq_of_sameScalar {a b : Value} (hnumeric : (a.isNumeric && b.isNumeric) = false) (h : a.sameScalar b = true) : a = b := by
  cases a with
  | integer n => cases b <;> first | cases h | cases hnumeric
  | number x => cases b <;> first | cases h | cases hnumeric
  | decimal d => cases b <;> first | cases h | cases hnumeric
  | _ => cases b <;> simp [sameScalar] at h <;> simp [h]

variable {scalar : Value → Value → Bool}

/-- Lists are equal when a function whose values tell their items apart gives the same list for both. -/
theorem itemsEqBy_of_map_eq {α : Type} {f : Value → α} {items others : List Value} (hmap : items.map f = others.map f)
    (h : ∀ item ∈ items, ∀ other ∈ others, f item = f other → eqBy scalar item other = true) :
    itemsEqBy scalar items others = true := by
  induction items generalizing others with
  | nil =>
    obtain rfl : others = [] := List.map_eq_nil_iff.mp hmap.symm
    rfl
  | cons item items ih =>
    obtain ⟨other, rest, rfl, hfirst, hrest⟩ := List.map_eq_cons_iff.mp hmap.symm
    have hsame := h item List.mem_cons_self other List.mem_cons_self hfirst.symm
    have hothers := ih hrest.symm fun item hitem other hother =>
      h item (List.mem_cons_of_mem _ hitem) other (List.mem_cons_of_mem _ hother)
    rw [itemsEqBy, hsame, hothers, Bool.and_true]

theorem fieldsEqBy_of_forall {fields others : List (String × Value)}
    (h : ∀ entry ∈ fields, ∃ other, OrderedMap.get? others entry.1 = some other ∧ eqBy scalar entry.2 other = true) :
    fieldsEqBy scalar fields others = true := by
  induction fields with
  | nil => rfl
  | cons entry fields ih =>
    obtain ⟨other, hother, hsame⟩ := h entry List.mem_cons_self
    have hrest := ih fun entry hentry => h entry (List.mem_cons_of_mem _ hentry)
    rw [fieldsEqBy, hother, hrest, Bool.and_true]
    exact hsame

theorem fieldsEqBy_iff {fields others : List (String × Value)} :
    fieldsEqBy scalar fields others = true ↔
      ∀ entry ∈ fields, ∃ other, OrderedMap.get? others entry.1 = some other ∧ eqBy scalar entry.2 other = true := by
  refine ⟨fun h => ?_, fieldsEqBy_of_forall⟩
  induction fields with
  | nil => exact fun _ hnone => absurd hnone List.not_mem_nil
  | cons entry fields ih =>
    rw [fieldsEqBy, Bool.and_eq_true] at h
    refine List.forall_mem_cons.mpr ⟨?_, ih h.2⟩
    cases hother : OrderedMap.get? others entry.1 with
    | none => simp [hother] at h
    | some other => exact ⟨other, rfl, by simpa [hother] using h.1⟩

end Value

end ObjectStore
