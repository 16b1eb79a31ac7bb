import ObjectStore.Proofs.Memory.Select
import ObjectStore.Proofs.Value.Comparison

/-!
# Sorting records

A sort has one right answer when its comparison is a total preorder of the items: the answer is a permutation of them, in order, and keeps the order of items that tie. The comparison of records always turns around with its arguments. It is transitive when, for each sort key, the values under it can all be compared with each other or are all tied. Values that cannot be compared are tied, so a value that stands apart from two others ties with both of them whatever their own order is.
-/

namespace ObjectStore

namespace Memory

section

variable {γ : Type} {compare first second : γ → γ → Ordering} {items sorted : List γ} {x y z : γ}

/-! ### Total preorders -/

/-- A comparison that is a total preorder of some items. -/
structure Preorders (compare : γ → γ → Ordering) (items : List γ) : Prop where
  swap : ∀ x ∈ items, ∀ y ∈ items, compare y x = (compare x y).swap
  trans : ∀ x ∈ items, ∀ y ∈ items, ∀ z ∈ items, compare x y ≠ .gt → compare y z ≠ .gt → compare x z ≠ .gt

namespace Preorders

theorem mono {others : List γ} (h : Preorders compare items) (hsub : others ⊆ items) : Preorders compare others where
  swap x hx y hy := h.swap x (hsub hx) y (hsub hy)
  trans x hx y hy z hz := h.trans x (hsub hx) y (hsub hy) z (hsub hz)

theorem self (h : Preorders compare items) (hx : x ∈ items) : compare x x = .eq := by
  have hswap := h.swap x hx x hx
  cases hself : compare x x with
  | eq => rfl
  | lt | gt =>
    rw [hself] at hswap
    cases hswap

theorem ne_gt_swap (h : Preorders compare items) (hx : x ∈ items) (hy : y ∈ items) :
    compare y x ≠ .gt ↔ compare x y ≠ .lt := by
  rw [h.swap x hx y hy]
  cases compare x y <;> decide

theorem congr_left (h : Preorders compare items) (hx : x ∈ items) (hy : y ∈ items) (hz : z ∈ items) (htie : compare x y = .eq) :
    compare x z = compare y z := by
  have hback : compare y x = .eq := by
    rw [h.swap x hx y hy, htie]
    rfl
  have hbelow : compare x z ≠ .gt ↔ compare y z ≠ .gt :=
    ⟨h.trans y hy x hx z hz (by rw [hback]; decide), h.trans x hx y hy z hz (by rw [htie]; decide)⟩
  have habove : compare x z ≠ .lt ↔ compare y z ≠ .lt := by
    rw [← h.ne_gt_swap hx hz, ← h.ne_gt_swap hy hz]
    exact ⟨fun hzx => h.trans z hz x hx y hy hzx (by rw [htie]; decide),
      fun hzy => h.trans z hz y hy x hx hzy (by rw [hback]; decide)⟩
  cases hxz : compare x z <;> cases hyz : compare y z <;> simp_all

theorem congr_right (h : Preorders compare items) (hx : x ∈ items) (hy : y ∈ items) (hz : z ∈ items) (htie : compare y z = .eq) :
    compare x y = compare x z := by
  rw [h.swap y hy x hx, h.swap z hz x hx, h.congr_left hy hz hx htie]

theorem lt_trans (h : Preorders compare items) (hx : x ∈ items) (hy : y ∈ items) (hz : z ∈ items) (hxy : compare x y = .lt)
    (hyz : compare y z = .lt) : compare x z = .lt := by
  have hle : compare x z ≠ .gt := h.trans x hx y hy z hz (by rw [hxy]; decide) (by rw [hyz]; decide)
  cases hxz : compare x z with
  | lt => rfl
  | eq =>
    rw [h.congr_left hx hz hy hxz, h.swap y hy z hz, hyz] at hxy
    cases hxy
  | gt => exact absurd hxz hle

theorem thenBy (h : Preorders first items) (hsecond : Preorders second items) :
    Preorders (fun x y => (first x y).then (second x y)) items where
  swap x hx y hy := by
    rw [h.swap x hx y hy, hsecond.swap x hx y hy, Ordering.swap_then]
  trans x hx y hy z hz hxy hyz := by
    cases hfirst : first x y with
    | gt =>
      rw [hfirst] at hxy
      exact absurd rfl hxy
    | eq =>
      rw [hfirst, Ordering.eq_then] at hxy
      rw [h.congr_left hx hy hz hfirst]
      cases hnext : first y z with
      | eq =>
        rw [hnext, Ordering.eq_then] at hyz
        exact hsecond.trans x hx y hy z hz hxy hyz
      | lt => exact nofun
      | gt =>
        rw [hnext] at hyz
        exact absurd rfl hyz
    | lt =>
      cases hnext : first y z with
      | eq =>
        rw [← h.congr_right hx hy hz hnext, hfirst]
        exact nofun
      | lt =>
        rw [h.lt_trans hx hy hz hfirst hnext]
        exact nofun
      | gt =>
        rw [hnext] at hyz
        exact absurd rfl hyz

theorem directed (h : Preorders compare items) (direction : SortOrder) :
    Preorders (fun x y => directed direction (compare x y)) items := by
  cases direction with
  | ascending => exact h
  | descending =>
    refine ⟨fun x hx y hy => congrArg Ordering.swap (h.swap x hx y hy), fun x hx y hy z hz hxy hyz => ?_⟩
    have hturned {v w : γ} (hv : v ∈ items) (hw : w ∈ items) : (compare v w).swap ≠ .gt ↔ compare w v ≠ .gt := by
      rw [h.swap v hv w hw]
    exact (hturned hx hz).mpr (h.trans z hz y hy x hx ((hturned hy hz).mp hyz) ((hturned hx hy).mp hxy))

theorem comap {γ δ : Type} {compare : γ → γ → Ordering} {f : δ → γ} {items : List δ}
    (h : Preorders compare (items.map f)) : Preorders (fun x y => compare (f x) (f y)) items := by
  refine ⟨fun x hx y hy => ?_, fun x hx y hy z hz => ?_⟩
  · exact h.swap _ (List.mem_map_of_mem hx) _ (List.mem_map_of_mem hy)
  · exact h.trans _ (List.mem_map_of_mem hx) _ (List.mem_map_of_mem hy) _ (List.mem_map_of_mem hz)

end Preorders

/-! ### The right answer of a sort -/

/-- A list is the stable sorting of some items: it has the same ones, in order, and keeps the order of those that tie. -/
structure Sorts (compare : γ → γ → Ordering) (items sorted : List γ) : Prop where
  perm : sorted.Perm items
  ordered : sorted.Pairwise fun x y => compare x y ≠ .gt
  stable : ∀ x ∈ items, sorted.filter (fun y => compare x y = .eq) = items.filter fun y => compare x y = .eq

theorem eq_of_stable {others : List γ} (h : Preorders compare sorted) (hperm : sorted.Perm others)
    (hsorted : sorted.Pairwise fun x y => compare x y ≠ .gt) (hothers : others.Pairwise fun x y => compare x y ≠ .gt)
    (hstable : ∀ x ∈ sorted, sorted.filter (fun y => compare x y = .eq) = others.filter fun y => compare x y = .eq) :
    sorted = others := by
  induction sorted generalizing others with
  | nil => exact (List.nil_perm.mp hperm).symm
  | cons x sorted ih =>
    cases others with
    | nil => exact absurd hperm.length_eq (Nat.succ_ne_zero _)
    | cons y others =>
      have hx : x ∈ x :: sorted := List.mem_cons_self
      have hy : y ∈ x :: sorted := hperm.mem_iff.mpr List.mem_cons_self
      -- each head is not above the other one, and so they tie
      have hxy : compare x y ≠ .gt := by
        rcases List.mem_cons.mp hy with rfl | hlater
        · rw [h.self hx]
          decide
        · exact List.rel_of_pairwise_cons hsorted hlater
      have hyx : compare x y ≠ .lt := by
        rw [← h.ne_gt_swap hx hy]
        rcases List.mem_cons.mp (hperm.mem_iff.mp hx) with rfl | hlater
        · rw [h.self hx]
          decide
        · exact List.rel_of_pairwise_cons hothers hlater
      have htie : compare x y = .eq := by
        cases horder : compare x y with
        | eq => rfl
        | lt => exact absurd horder hyx
        | gt => exact absurd horder hxy
      have hheads := hstable x hx
      rw [List.filter_cons_of_pos (by rw [h.self hx]; rfl), List.filter_cons_of_pos (by rw [htie]; rfl)] at hheads
      obtain ⟨rfl, -⟩ := List.cons.inj hheads
      refine congrArg (x :: ·) (ih (h.mono (List.subset_cons_self x sorted)) hperm.cons_inv hsorted.of_cons hothers.of_cons
        fun z hz => ?_)
      have hrest := hstable z (List.mem_cons_of_mem x hz)
      rw [List.filter_cons, List.filter_cons] at hrest
      split at hrest
      · exact (List.cons.inj hrest).2
      · exact hrest

theorem Sorts.unique {others : List γ} (hpreorder : Preorders compare items) (h : Sorts compare items sorted)
    (hothers : Sorts compare items others) : sorted = others :=
  eq_of_stable (hpreorder.mono h.perm.subset) (h.perm.trans hothers.perm.symm) h.ordered hothers.ordered fun x hx =>
    (h.stable x (h.perm.mem_iff.mp hx)).trans (hothers.stable x (h.perm.mem_iff.mp hx)).symm

/-- Of two items that tie in a stable sorting, the earlier one comes first. -/
theorem Sorts.pairwise {γ : Type} {compare : γ → γ → Ordering} {items sorted : List γ} (hpreorder : Preorders compare items)
    (h : Sorts compare items sorted) :
    sorted.Pairwise fun x y => compare x y = .lt ∨ compare y x ≠ .lt ∧ [x, y].Sublist items := by
  refine List.pairwise_iff_forall_sublist.mpr fun {x y} hxy => ?_
  have hx : x ∈ items := h.perm.subset (hxy.subset List.mem_cons_self)
  have hy : y ∈ items := h.perm.subset (hxy.subset (List.mem_cons_of_mem x List.mem_cons_self))
  have hle : compare x y ≠ .gt := List.pairwise_iff_forall_sublist.mp h.ordered hxy
  cases horder : compare x y with
  | lt => exact .inl rfl
  | gt => exact absurd horder hle
  | eq =>
    have hties : [x, y].filter (fun z => compare x z = .eq) = [x, y] := by
      rw [List.filter_eq_self]
      intro z hz
      rcases List.mem_cons.mp hz with rfl | hz
      · exact decide_eq_true (hpreorder.self hx)
      · obtain rfl := List.mem_singleton.mp hz
        exact decide_eq_true horder
    have hfiltered := hxy.filter fun z => compare x z = .eq
    rw [hties, h.stable x hx] at hfiltered
    refine .inr ⟨?_, hfiltered.trans List.filter_sublist⟩
    rw [hpreorder.swap x hx y hy, horder]
    decide

/-! ### The insertion sort -/

theorem pairwise_insertBackward (h : Preorders compare items) (hx : x ∈ items) (hsub : sorted ⊆ items)
    (hsorted : sorted.Pairwise fun later earlier => compare earlier later ≠ .gt) :
    (insertBackward compare x sorted).Pairwise fun later earlier => compare earlier later ≠ .gt := by
  induction sorted with
  | nil => exact List.pairwise_singleton _ x
  | cons y sorted ih =>
    obtain ⟨hy, hrest⟩ := List.cons_subset.mp hsub
    obtain ⟨hhead, htail⟩ := List.pairwise_cons.mp hsorted
    rw [insertBackward]
    split
    · next hless =>
      refine List.pairwise_cons.mpr ⟨fun z hz => ?_, ih hrest htail⟩
      rcases List.mem_cons.mp ((insertBackward_perm compare x sorted).mem_iff.mp hz) with rfl | hz
      · rw [hless]
        decide
      · exact hhead z hz
    · next hless =>
      have hyx : compare y x ≠ .gt := (h.ne_gt_swap hx hy).mpr hless
      refine List.pairwise_cons.mpr ⟨fun z hz => ?_, hsorted⟩
      rcases List.mem_cons.mp hz with rfl | hz
      · exact hyx
      · exact h.trans z (hrest hz) y hy x hx (hhead z hz) hyx

theorem filter_insertBackward (h : Preorders compare items) (hx : x ∈ items) (hz : z ∈ items) (hsub : sorted ⊆ items) :
    (insertBackward compare x sorted).filter (fun y => compare z y = .eq) = (x :: sorted).filter fun y => compare z y = .eq := by
  induction sorted with
  | nil => rfl
  | cons y sorted ih =>
    obtain ⟨hy, hrest⟩ := List.cons_subset.mp hsub
    rw [insertBackward]
    split
    · next hless =>
      rw [List.filter_cons, ih hrest, List.filter_cons, List.filter_cons, List.filter_cons]
      by_cases htie : compare z x = .eq
      · have hbelow : compare z y = .lt := (h.congr_left hz hx hy htie).trans hless
        rw [hbelow, htie]
        rfl
      · simp only [htie, decide_false, Bool.false_eq_true, if_false]
    · rfl

theorem foldl_insertBackward (h : Preorders compare items) {rest : List γ} (hrest : rest ⊆ items) (hsub : sorted ⊆ items)
    (hsorted : sorted.Pairwise fun later earlier => compare earlier later ≠ .gt) :
    (rest.foldl (fun sorted x => insertBackward compare x sorted) sorted).Pairwise (fun later earlier => compare earlier later ≠ .gt) ∧
      ∀ z ∈ items, (rest.foldl (fun sorted x => insertBackward compare x sorted) sorted).filter (fun y => compare z y = .eq) =
        (rest.reverse ++ sorted).filter fun y => compare z y = .eq := by
  induction rest generalizing sorted with
  | nil => exact ⟨hsorted, fun _ _ => rfl⟩
  | cons x rest ih =>
    obtain ⟨hx, hlater⟩ := List.cons_subset.mp hrest
    have hinserted : insertBackward compare x sorted ⊆ items := fun y hy => by
      rcases List.mem_cons.mp ((insertBackward_perm compare x sorted).mem_iff.mp hy) with rfl | hy
      · exact hx
      · exact hsub hy
    obtain ⟨hordered, hstable⟩ := ih hlater hinserted (pairwise_insertBackward h hx hsub hsorted)
    refine ⟨hordered, fun z hz => ?_⟩
    rw [List.foldl_cons, hstable z hz, List.filter_append, filter_insertBackward h hx hz hsub, ← List.filter_append,
      List.reverse_cons, List.append_assoc, List.singleton_append]

theorem insertionSort_sorts (h : Preorders compare items) : Sorts compare items (insertionSort compare items) := by
  obtain ⟨hordered, hstable⟩ := foldl_insertBackward h (List.Subset.refl items) (List.nil_subset items) List.Pairwise.nil
  refine ⟨insertionSort_perm compare items, List.pairwise_reverse.mpr hordered, fun x hx => ?_⟩
  rw [insertionSort, List.filter_reverse, hstable x hx, List.append_nil, List.filter_reverse, List.reverse_reverse]

theorem sorts_iff (h : Preorders compare items) : Sorts compare items sorted ↔ sorted = insertionSort compare items := by
  refine ⟨fun hsorted => hsorted.unique h (insertionSort_sorts h), ?_⟩
  rintro rfl
  exact insertionSort_sorts h

end

/-! ### Values that can be put in order -/

/-- The order of two values as the sort takes it: values without an order tie. -/
def compareValues (a b : Value) : Ordering := (a.compare? b).getD .eq

/-- Whether values can be put in order: all of them tie, or each two of them have an order that no infinity blurs. -/
def Orderable (values : List Value) : Prop :=
  (∀ a ∈ values, ∀ b ∈ values, compareValues a b = .eq) ∨
    (∀ a ∈ values, ∀ b ∈ values, (a.compare? b).isSome = true) ∧ Value.Clear values

theorem compareValues_swap (a b : Value) : compareValues b a = (compareValues a b).swap := by
  rw [compareValues, compareValues, Value.compare?_swap a b]
  cases a.compare? b <;> rfl

theorem compareValues_of_none {a b : Value} (h : a.compare? b = none) : compareValues a b = .eq := by
  rw [compareValues, h, Option.getD_none]

theorem compare?_of_compareValues_lt {a b : Value} (h : compareValues a b = .lt) : a.compare? b = some .lt := by
  rw [compareValues] at h
  cases horder : a.compare? b with
  | none =>
    rw [horder] at h
    cases h
  | some order =>
    rw [horder] at h
    exact congrArg some h

/-- Where each two values have an order, all of them belong to one group. -/
theorem exists_place_of_comparable {values : List Value} (hnull : ∀ value ∈ values, value.isNull = false)
    (hcomparable : ∀ a ∈ values, ∀ b ∈ values, (a.compare? b).isSome = true) {a b c : Value} (ha : a ∈ values) (hb : b ∈ values)
    (hc : c ∈ values) : ∃ (group : Value.Group) (p q r : group.Place),
      group.place? a = some p ∧ group.place? b = some q ∧ group.place? c = some r := by
  obtain ⟨order, horder⟩ := Option.isSome_iff_exists.mp (hcomparable a ha b hb)
  obtain ⟨order', horder'⟩ := Option.isSome_iff_exists.mp (hcomparable a ha c hc)
  obtain ⟨group, hga, hgb⟩ := Value.exists_group_of_compare? horder (hnull a ha)
  obtain ⟨group', hga', hgc⟩ := Value.exists_group_of_compare? horder' (hnull a ha)
  obtain rfl := Value.group_unique hga hga'
  obtain ⟨p, hp⟩ := Option.isSome_iff_exists.mp hga
  obtain ⟨q, hq⟩ := Option.isSome_iff_exists.mp hgb
  obtain ⟨r, hr⟩ := Option.isSome_iff_exists.mp hgc
  exact ⟨group, p, q, r, hp, hq, hr⟩

theorem Orderable.preorders {values : List Value} (h : Orderable values) (hnull : ∀ value ∈ values, value.isNull = false) :
    Preorders compareValues values := by
  refine ⟨fun a _ b _ => compareValues_swap a b, fun a ha b hb c hc hab hbc => ?_⟩
  rcases h with hties | ⟨hcomparable, hclear⟩
  · rw [hties a ha c hc]
    decide
  · obtain ⟨group, p, q, r, hp, hq, hr⟩ := exists_place_of_comparable hnull hcomparable ha hb hc
    rw [compareValues, hclear.compare? ha hb hp hq, Option.getD_some] at hab
    rw [compareValues, hclear.compare? hb hc hq hr, Option.getD_some] at hbc
    rw [compareValues, hclear.compare? ha hc hp hr, Option.getD_some]
    have hpq : p ≤ q := (cmp_compares p q).ne_gt.mp hab
    have hqr : q ≤ r := (cmp_compares q r).ne_gt.mp hbc
    exact (cmp_compares p r).ne_gt.mpr (hpq.trans hqr)

/-- Unless an infinity blurs the order, only values that can be put in order are ordered transitively. -/
theorem Orderable.of_preorders {values : List Value} (h : Preorders compareValues values) (hclear : Value.Clear values)
    (hnull : ∀ value ∈ values, value.isNull = false) : Orderable values := by
  by_cases hties : ∀ a ∈ values, ∀ b ∈ values, compareValues a b = .eq
  · exact .inl hties
  obtain ⟨a, ha, b, hb, hless⟩ : ∃ a ∈ values, ∃ b ∈ values, compareValues a b = .lt := by
    push Not at hties
    obtain ⟨a, ha, b, hb, hapart⟩ := hties
    cases horder : compareValues a b with
    | lt => exact ⟨a, ha, b, hb, horder⟩
    | eq => exact absurd horder hapart
    | gt => exact ⟨b, hb, a, ha, by rw [compareValues_swap, horder]; rfl⟩
  obtain ⟨group, hga, hgb⟩ := Value.exists_group_of_compare? (compare?_of_compareValues_lt hless) (hnull a ha)
  -- a value outside the group would tie with both of the values that do not tie
  have hgroup : ∀ c ∈ values, (group.place? c).isSome = true := by
    intro c hc
    cases hac : a.compare? c with
    | some order =>
      obtain ⟨group', hga', hgc⟩ := Value.exists_group_of_compare? hac (hnull a ha)
      exact Value.group_unique hga hga' ▸ hgc
    | none =>
      cases hbc : b.compare? c with
      | some order =>
        obtain ⟨group', hgb', hgc⟩ := Value.exists_group_of_compare? hbc (hnull b hb)
        exact Value.group_unique hgb hgb' ▸ hgc
      | none =>
        rw [h.congr_right ha hb hc (compareValues_of_none hbc), compareValues_of_none hac] at hless
        cases hless
  refine .inr ⟨fun c hc d hd => ?_, hclear⟩
  obtain ⟨p, hp⟩ := Option.isSome_iff_exists.mp (hgroup c hc)
  obtain ⟨q, hq⟩ := Option.isSome_iff_exists.mp (hgroup d hd)
  rw [hclear.compare? hc hd hp hq, Option.isSome_some]

/-! ### Records -/

/-- What a record holds under a name, if it is neither missing nor null. -/
def present? (record : Fields) (key : String) : Option Value := (OrderedMap.get? record key).filter fun value => !value.isNull

/-- What some records hold under a name. -/
def presents (key : String) (records : List Fields) : List Value := records.filterMap (present? · key)

theorem isNull_of_mem_presents {key : String} {records : List Fields} {value : Value} (h : value ∈ presents key records) :
    value.isNull = false := by
  obtain ⟨record, -, hvalue⟩ := List.mem_filterMap.mp h
  have htest := (Option.filter_eq_some_iff.mp hvalue).2
  exact Bool.not_eq_true' _ ▸ htest

theorem mem_presents {key : String} {records : List Fields} {record : Fields} {value : Value} (hrecord : record ∈ records)
    (h : present? record key = some value) : value ∈ presents key records :=
  List.mem_filterMap.mpr ⟨record, hrecord, h⟩

/-- The order of two records by one name. -/
def compareUnder (key : String) (a b : Fields) : Ordering := compareFields (OrderedMap.get? a key) (OrderedMap.get? b key)

theorem compareUnder_eq (key : String) (a b : Fields) : compareUnder key a b =
    match present? a key, present? b key with
    | none, none => .eq
    | none, some _ => .lt
    | some _, none => .gt
    | some value, some other => compareValues value other := rfl

theorem compareUnder_swap (key : String) (a b : Fields) : compareUnder key b a = (compareUnder key a b).swap := by
  rw [compareUnder_eq, compareUnder_eq]
  cases present? a key with
  | none => cases present? b key <;> rfl
  | some value =>
    cases present? b key with
    | none => rfl
    | some other => exact compareValues_swap value other

/-- Records are in order under a name as the values there are; a record without a value comes first. -/
theorem preorders_compareUnder_iff {key : String} {records : List Fields} :
    Preorders (compareUnder key) records ↔ Preorders compareValues (presents key records) := by
  constructor
  · intro h
    refine ⟨fun value _ other _ => compareValues_swap value other, fun value hvalue other hother last hlast hle hle' => ?_⟩
    obtain ⟨a, ha, hpa⟩ := List.mem_filterMap.mp hvalue
    obtain ⟨b, hb, hpb⟩ := List.mem_filterMap.mp hother
    obtain ⟨c, hc, hpc⟩ := List.mem_filterMap.mp hlast
    have htrans := h.trans a ha b hb c hc
    rw [compareUnder_eq, compareUnder_eq, compareUnder_eq, hpa, hpb, hpc] at htrans
    exact htrans hle hle'
  · intro h
    refine ⟨fun a _ b _ => compareUnder_swap key a b, fun a ha b hb c hc hle hle' => ?_⟩
    rw [compareUnder_eq] at hle hle' ⊢
    cases hpa : present? a key with
    | none => cases present? c key <;> exact nofun
    | some value =>
      cases hpb : present? b key with
      | none =>
        rw [hpa, hpb] at hle
        exact absurd rfl hle
      | some other =>
        cases hpc : present? c key with
        | none =>
          rw [hpb, hpc] at hle'
          exact absurd rfl hle'
        | some last =>
          rw [hpa, hpb] at hle
          rw [hpb, hpc] at hle'
          exact h.trans value (mem_presents ha hpa) other (mem_presents hb hpb) last (mem_presents hc hpc) hle hle'

theorem compareRecords_swap (sort : SortKeys) (a b : Fields) : compareRecords sort b a = (compareRecords sort a b).swap := by
  induction sort with
  | nil => rfl
  | cons entry sort ih =>
    obtain ⟨key, direction⟩ := entry
    have hfirst : directed direction (compareUnder key b a) = (directed direction (compareUnder key a b)).swap := by
      rw [compareUnder_swap key a b]
      cases direction <;> rfl
    rw [compareRecords, compareRecords, Ordering.swap_then, ← ih]
    exact congrArg (Ordering.then · _) hfirst

/-- Records are in order by some names as soon as they are by each of them. -/
theorem preorders_compareRecords {sort : SortKeys} {records : List Fields}
    (h : ∀ entry ∈ sort, Preorders (compareUnder entry.1) records) : Preorders (compareRecords sort) records := by
  induction sort with
  | nil => exact ⟨fun _ _ _ _ => rfl, fun _ _ _ _ _ _ _ _ => nofun⟩
  | cons entry sort ih =>
    have hfirst := (h entry List.mem_cons_self).directed entry.2
    exact hfirst.thenBy (ih fun later hlater => h later (List.mem_cons_of_mem entry hlater))

theorem preorders_compareUnder_of_compareRecords {key : String} {direction : SortOrder} {records : List Fields}
    (h : Preorders (compareRecords [(key, direction)]) records) : Preorders (compareUnder key) records := by
  have hone (a b : Fields) : compareRecords [(key, direction)] a b = directed direction (compareUnder key a b) :=
    Ordering.then_eq
  have hagain := h.directed direction
  refine ⟨fun a _ b _ => compareUnder_swap key a b, fun a ha b hb c hc => ?_⟩
  have htrans := hagain.trans a ha b hb c hc
  simp only [hone] at htrans
  cases direction with
  | ascending => exact htrans
  | descending =>
    simp only [Memory.directed, Ordering.swap_swap] at htrans
    exact htrans

/-! ### The comparison of records -/

/-- The comparison of records turns around with its arguments. It is a total preorder of some records if under each sort key their values can be put in order, and then there is one stable sorting, which the sort finds. For one sort key, this condition is also necessary unless an infinity blurs the order. -/
theorem compareRecords_lawful (sort : SortKeys) (records : List Fields) :
    (∀ a b, compareRecords sort b a = (compareRecords sort a b).swap) ∧
    ((∀ entry ∈ sort, Orderable (presents entry.1 records)) → Preorders (compareRecords sort) records ∧
      ∀ sorted, Sorts (compareRecords sort) records sorted ↔ sorted = insertionSort (compareRecords sort) records) ∧
    ∀ key direction, sort = [(key, direction)] → Value.Clear (presents key records) →
      (Preorders (compareRecords sort) records ↔ Orderable (presents key records)) := by
  have horderable {key : String} (h : Orderable (presents key records)) : Preorders (compareUnder key) records :=
    preorders_compareUnder_iff.mpr (h.preorders fun _ => isNull_of_mem_presents)
  refine ⟨compareRecords_swap sort, fun h => ?_, ?_⟩
  · have hpreorders := preorders_compareRecords fun entry hentry => horderable (h entry hentry)
    exact ⟨hpreorders, fun sorted => sorts_iff hpreorders⟩
  · rintro key direction rfl hclear
    constructor
    · intro h
      have hvalues := preorders_compareUnder_iff.mp (preorders_compareUnder_of_compareRecords h)
      exact Orderable.of_preorders hvalues hclear fun _ => isNull_of_mem_presents
    · intro h
      refine preorders_compareRecords fun entry hentry => ?_
      obtain rfl := List.mem_singleton.mp hentry
      exact horderable h

theorem missing_before_numbers : Sorts (compareRecords [("n", .ascending)])
    [[("n", .integer 2)], [], [("n", .integer 1)]] [[], [("n", .integer 1)], [("n", .integer 2)]] := by
  have horderable : Orderable (presents "n" [[("n", .integer 2)], [], [("n", .integer 1)]]) :=
    .inr ⟨by decide, .inl (by decide)⟩
  have hlawful := compareRecords_lawful [("n", .ascending)] [[("n", .integer 2)], [], [("n", .integer 1)]]
  refine ((hlawful.2.1 fun entry hentry => ?_).2 _).mpr rfl
  obtain rfl := List.mem_singleton.mp hentry
  exact horderable

/-- Two numbers with a text between them: the text ties with both. -/
theorem text_between_numbers : ¬ ∀ (sort : SortKeys) (a b c : Fields), compareRecords sort b a = (compareRecords sort a b).swap ∧
    (compareRecords sort a b ≠ .gt → compareRecords sort b c ≠ .gt → compareRecords sort a c ≠ .gt) := by
  intro h
  exact (h [("n", .ascending)] [("n", .integer 2)] [("n", .string "x")] [("n", .integer 1)]).2 (by decide) (by decide) (by decide)

/-- Among numbers alone it takes an infinity and numbers that have no finite double: it ties with both of these. -/
example : compareValues (.decimal ⟨1, -401⟩) (.number (.infinity false)) = .eq ∧
    compareValues (.number (.infinity false)) (.decimal ⟨1, -400⟩) = .eq ∧
    compareValues (.decimal ⟨1, -401⟩) (.decimal ⟨1, -400⟩) = .gt := by
  decide +kernel

end Memory

end ObjectStore
