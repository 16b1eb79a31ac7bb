import Mathlib.Data.List.Nodup
import Mathlib.Data.Set.Function
import ObjectStore.Proofs.Predicate

/-!
# The names of a predicate

The names that are collected from a predicate are all that its evaluation looks up. So the answer on a record depends on what the record shows under these names and on nothing else. A renaming of the predicate renames the collected names one by one. If it keeps the names of the predicate and of a record apart, then it can be done on both, and the answer stays the same.
-/

namespace ObjectStore

namespace OrderedMap

variable {α : Type u} {rename : String → String} {map : OrderedMap α} {key : String}

theorem get?_map_rename (h : ∀ name ∈ keys map, rename name = rename key → name = key) :
    get? (map.map fun entry => (rename entry.1, entry.2)) (rename key) = get? map key := by
  induction map with
  | nil => rfl
  | cons entry rest ih =>
    obtain ⟨hfirst, hrest⟩ := List.forall_mem_cons.mp h
    rw [List.map_cons, get?_cons, get?_cons, ih hrest]
    by_cases same : entry.1 = key
    · rw [if_pos same, if_pos (congrArg rename same)]
    · rw [if_neg same, if_neg fun hrename => same (hfirst hrename)]

theorem get?_mapKeys_of_injOn (hdistinct : map.Distinct) (hrename : Set.InjOn rename {name | name = key ∨ name ∈ keys map}) :
    get? (mapKeys rename map) (rename key) = get? map key := by
  have hnodup : ((keys map).map rename).Nodup :=
    List.Nodup.map_on (fun name hname other hother same => hrename (.inr hname) (.inr hother) same) hdistinct
  rw [mapKeys_eq_map hnodup]
  exact get?_map_rename fun name hname same => hrename (.inr hname) (.inl rfl) same

end OrderedMap

namespace Predicate

variable {predicate : Predicate} {rename : String → String} {record other : Fields}

/-- Only what a record shows under the names of a predicate decides whether the predicate holds. -/
theorem holds_congr (h : ∀ key ∈ predicate.keys, (Operand.key key).resolve record = (Operand.key key).resolve other) :
    predicate.holds record = predicate.holds other := by
  have hshows (key : String) (hkey : key ∈ predicate.keys) : Fields.ShowsAs id other record key := h key hkey
  rw [← holds_mapKeys predicate hshows, mapKeys_id]

theorem showsAs_mapKeys (hdistinct : record.Distinct)
    (hrename : Set.InjOn rename {name | name ∈ predicate.keys ∨ name ∈ OrderedMap.keys record}) (key : String)
    (hkey : key ∈ predicate.keys) : Fields.ShowsAs rename record (OrderedMap.mapKeys rename record) key := by
  have hnames : {name | name = key ∨ name ∈ OrderedMap.keys record} ⊆ {name | name ∈ predicate.keys ∨ name ∈ OrderedMap.keys record} :=
    fun name hname => hname.imp_left fun (same : name = key) => same ▸ hkey
  rw [Fields.ShowsAs, Operand.resolve, Operand.resolve, OrderedMap.get?_mapKeys_of_injOn hdistinct (hrename.mono hnames)]

/-- The names of a predicate are all that it reads: it gives the same answer on two records that show the same under each of them, a missing field as null. The names of a renamed predicate are the renamed names, in their order. And if a renaming keeps the names of the predicate and of a record apart, then the renamed predicate says of the renamed record what the predicate says of the record. -/
theorem keys_complete (predicate : Predicate) :
    (∀ record other : Fields,
      (∀ key ∈ predicate.keys, (Operand.key key).resolve record = (Operand.key key).resolve other) →
        predicate.holds record = predicate.holds other) ∧
    (∀ rename : String → String, (predicate.mapKeys rename).keys = predicate.keys.map rename) ∧
    ∀ (rename : String → String) (record : Fields), record.Distinct →
      Set.InjOn rename {name | name ∈ predicate.keys ∨ name ∈ OrderedMap.keys record} →
        (predicate.mapKeys rename).holds (OrderedMap.mapKeys rename record) = predicate.holds record := by
  refine ⟨fun record other h => holds_congr h, fun rename => keys_mapKeys predicate, fun rename record hdistinct hrename => ?_⟩
  exact holds_mapKeys predicate (showsAs_mapKeys hdistinct hrename)

/-- A predicate that names fields as bounds of a range, on both sides of a membership and in a pattern, on a record that lacks one of them and has another field besides. The renaming would not keep `id` and `_id` apart. -/
theorem keys_complete_nested :
    let predicate := not (any [all [between (.key "a") (.literal (.integer 1)) (.key "b"), elementOf (.key "a") (.key "c")],
      pattern .startsWith "id" "J"])
    let record : Fields := [("b", .integer 3), ("a", .integer 2), ("id", .string "Jo"), ("d", .null)]
    let other : Fields := [("id", .string "Jo"), ("a", .integer 2), ("b", .integer 3), ("c", .null)]
    let rename := fun name => if name = "id" then "_id" else name
    predicate.keys = ["a", "b", "a", "c", "id"] ∧ predicate.holds record = predicate.holds other ∧
      (predicate.mapKeys rename).keys = ["a", "b", "a", "c", "_id"] ∧
      (predicate.mapKeys rename).holds (OrderedMap.mapKeys rename record) = predicate.holds record := by
  intro predicate record other rename
  obtain ⟨hreads, hnames, hrenamed⟩ := keys_complete predicate
  have happart : ∀ name ∈ predicate.keys ++ OrderedMap.keys record, ∀ other ∈ predicate.keys ++ OrderedMap.keys record,
      rename name = rename other → name = other := by
    decide
  refine ⟨rfl, hreads record other (fun key hkey => ?_), hnames rename, hrenamed rename record (by decide) fun name hname other hother => ?_⟩
  · simp only [predicate, keys, keysOfList, Operand.keys, List.append_nil, List.nil_append, List.cons_append, List.mem_cons,
      List.not_mem_nil, or_false] at hkey
    rcases hkey with rfl | rfl | rfl | rfl | rfl <;> rfl
  · exact happart name (List.mem_append.mpr hname) other (List.mem_append.mpr hother)

end Predicate

end ObjectStore
