import ObjectStore.Memory.Select
import ObjectStore.Proofs.Predicate

/-!
# What a query selects

Sorting puts the matching records into another order and neither adds nor drops one. So whatever is selected is a stored record that passes the filter, and there is a first match unless no record passes.
-/

namespace ObjectStore

namespace Memory

section

variable {γ : Type} (compare : γ → γ → Ordering)

theorem insertBackward_perm (x : γ) (sorted : List γ) : (insertBackward compare x sorted).Perm (x :: sorted) := by
  induction sorted with
  | nil => exact .refl _
  | cons y rest ih =>
    rw [insertBackward]
    split
    · exact (ih.cons y).trans (.swap x y rest)
    · exact .refl _

theorem foldl_insertBackward_perm (items sorted : List γ) :
    (items.foldl (fun sorted x => insertBackward compare x sorted) sorted).Perm (items ++ sorted) := by
  induction items generalizing sorted with
  | nil => exact .refl _
  | cons x items ih =>
    have hlater : (items ++ insertBackward compare x sorted).Perm (items ++ x :: sorted) :=
      (insertBackward_perm compare x sorted).append_left items
    exact (ih _).trans (hlater.trans List.perm_middle)

theorem insertionSort_perm (items : List γ) : (insertionSort compare items).Perm items := by
  have hfold := foldl_insertBackward_perm compare items []
  rw [List.append_nil] at hfold
  exact (List.reverse_perm _).trans hfold

end

variable {table : Table} {query : FindQuery} {entry : String × Fields}

/-- The records that pass a filter, in the order of the table. -/
def matching (table : Table) (filter : Option Predicate) : Table :=
  OrderedMap.filter (fun _ record => Predicate.passes filter record) table

theorem mem_matching_iff {filter : Option Predicate} :
    entry ∈ matching table filter ↔ entry ∈ table ∧ Predicate.passes filter entry.2 = true :=
  List.mem_filter

/-- Without paging a query selects all matches. -/
theorem selectEntries_perm (hskip : query.skip = 0) (hlimit : query.limit = none) :
    (selectEntries table query).Perm (matching table query.predicate?) := by
  simp only [selectEntries, hskip, hlimit, List.drop_zero]
  exact insertionSort_perm _ _

theorem mem_matching_of_mem_selectEntries (h : entry ∈ selectEntries table query) : entry ∈ matching table query.predicate? := by
  have hpaged : entry ∈ (insertionSort (fun a b => compareRecords query.sort a.2 b.2) (matching table query.predicate?)).drop
      query.skip := by
    rw [selectEntries] at h
    cases hlimit : query.limit with
    | none =>
      simp only [hlimit] at h
      exact h
    | some limit =>
      simp only [hlimit] at h
      exact List.mem_of_mem_take h
  exact (insertionSort_perm _ _).mem_iff.mp (List.mem_of_mem_drop hpaged)

theorem mem_of_mem_selectEntries (h : entry ∈ selectEntries table query) : entry ∈ table :=
  (mem_matching_iff.mp (mem_matching_of_mem_selectEntries h)).1

theorem selectEntries_nil (query : FindQuery) : selectEntries [] query = [] :=
  List.eq_nil_iff_forall_not_mem.mpr fun _ hentry => List.not_mem_nil (mem_of_mem_selectEntries hentry)

theorem head?_selectEntries_eq_none_iff {query : FindOneQuery} :
    (selectEntries table query.asFind).head? = none ↔ ∀ entry ∈ table, Predicate.passes query.predicate? entry.2 = false := by
  have hselect : selectEntries table query.asFind =
      (insertionSort (fun a b => compareRecords query.sort a.2 b.2) (matching table query.predicate?)).take 1 := rfl
  have hempty : insertionSort (fun a b => compareRecords query.sort a.2 b.2) (matching table query.predicate?) = [] ↔
      matching table query.predicate? = [] := by
    rw [← List.length_eq_zero_iff, (insertionSort_perm _ _).length_eq, List.length_eq_zero_iff]
  rw [hselect, List.head?_take, if_neg Nat.one_ne_zero, List.head?_eq_none_iff, hempty, matching, OrderedMap.filter,
    List.filter_eq_nil_iff]
  simp only [Bool.not_eq_true]

end Memory

end ObjectStore
