import Mathlib.Data.List.Forall2
import Mathlib.Data.List.Perm.Subperm
import ObjectStore.OrderedMap

/-!
# Reading an ordered map after it was written

What a look-up finds after each of the operations on maps, and which entries can be there. None of the facts needs the names of the map to be distinct: a look-up always takes the first entry of a name, and every operation changes that entry only.
-/

namespace ObjectStore

theorem exists_right_of_forall₂ {α β : Type*} {related : α → β → Prop} {items : List α} {others : List β}
    (h : List.Forall₂ related items others) {item : α} (hitem : item ∈ items) : ∃ other ∈ others, related item other := by
  induction h with
  | nil => cases hitem
  | cons hfirst _ ih =>
    rcases List.mem_cons.mp hitem with rfl | hlater
    · exact ⟨_, List.mem_cons_self, hfirst⟩
    · obtain ⟨other, hother, hrelated⟩ := ih hlater
      exact ⟨other, List.mem_cons_of_mem _ hother, hrelated⟩

theorem exists_left_of_forall₂ {α β : Type*} {related : α → β → Prop} {items : List α} {others : List β}
    (h : List.Forall₂ related items others) {other : β} (hother : other ∈ others) : ∃ item ∈ items, related item other :=
  exists_right_of_forall₂ (List.Forall₂.flip h : List.Forall₂ (flip related) others items) hother

namespace OrderedMap

universe u

variable {α : Type u}

@[simp] theorem get?_nil (key : String) : get? ([] : OrderedMap α) key = none := rfl

theorem get?_cons (name : String) (value : α) (rest : OrderedMap α) (key : String) :
    get? ((name, value) :: rest) key = if name = key then some value else get? rest key := rfl

theorem mem_of_get? {map : OrderedMap α} {key : String} {value : α} (h : get? map key = some value) :
    (key, value) ∈ map := by
  induction map with
  | nil => simp at h
  | cons entry rest ih =>
    obtain ⟨name, old⟩ := entry
    rw [get?_cons] at h
    split at h
    · next same =>
      subst same
      rw [Option.some.inj h]
      exact List.mem_cons_self
    · exact List.mem_cons_of_mem _ (ih h)

theorem get?_of_mem {map : OrderedMap α} (hdistinct : map.Distinct) {key : String} {value : α} (h : (key, value) ∈ map) :
    get? map key = some value := by
  induction map with
  | nil => cases h
  | cons entry rest ih =>
    obtain ⟨name, old⟩ := entry
    obtain ⟨hname, hrest⟩ := List.nodup_cons.mp hdistinct
    rw [get?_cons]
    rcases List.mem_cons.mp h with hfirst | hlater
    · cases hfirst
      exact if_pos rfl
    · have hne : name ≠ key := by
        rintro rfl
        exact hname (List.mem_map.mpr ⟨(name, value), hlater, rfl⟩)
      rw [if_neg hne, ih hrest hlater]

theorem contains_eq_true_iff {map : OrderedMap α} {key : String} : contains map key = true ↔ key ∈ keys map := by
  induction map with
  | nil => simp [contains, keys]
  | cons entry rest ih =>
    obtain ⟨name, old⟩ := entry
    simp only [contains, keys] at ih
    simp only [contains, get?_cons, keys, List.map_cons, List.mem_cons]
    by_cases same : name = key
    · simp [same]
    · simp only [if_neg same, ih, Ne.symm same, false_or]

theorem get?_eq_none_iff {map : OrderedMap α} {key : String} : get? map key = none ↔ key ∉ keys map := by
  rw [← contains_eq_true_iff, contains, Option.not_isSome_iff_eq_none.symm]

/-! ### Writing one entry -/

theorem get?_insert (map : OrderedMap α) (key : String) (value : α) (other : String) :
    get? (insert map key value) other = if key = other then some value else get? map other := by
  induction map with
  | nil => rfl
  | cons entry rest ih =>
    obtain ⟨name, old⟩ := entry
    simp only [insert]
    by_cases same : name = key
    · subst same
      simp only [if_true, get?_cons]
      split <;> rfl
    · simp only [if_neg same, get?_cons, ih]
      by_cases hit : name = other
      · subst hit
        simp [Ne.symm same]
      · simp [hit]

@[simp] theorem get?_insert_self (map : OrderedMap α) (key : String) (value : α) :
    get? (insert map key value) key = some value := by
  rw [get?_insert, if_pos rfl]

theorem get?_insert_of_ne {key other : String} (hne : key ≠ other) (map : OrderedMap α) (value : α) :
    get? (insert map key value) other = get? map other := by
  rw [get?_insert, if_neg hne]

theorem mem_insert {map : OrderedMap α} {key : String} {value : α} {entry : String × α}
    (h : entry ∈ insert map key value) : entry = (key, value) ∨ entry ∈ map := by
  induction map with
  | nil => exact Or.inl (List.mem_singleton.mp h)
  | cons first rest ih =>
    obtain ⟨name, old⟩ := first
    simp only [insert] at h
    split at h
    · next same =>
      subst same
      rcases List.mem_cons.mp h with rfl | h
      · exact Or.inl rfl
      · exact Or.inr (List.mem_cons_of_mem _ h)
    · rcases List.mem_cons.mp h with rfl | h
      · exact Or.inr List.mem_cons_self
      · exact (ih h).imp_right (List.mem_cons_of_mem _)

theorem mem_insert_self (map : OrderedMap α) (key : String) (value : α) : (key, value) ∈ insert map key value :=
  mem_of_get? (get?_insert_self map key value)

theorem keys_insert_of_mem {map : OrderedMap α} {key : String} (h : key ∈ keys map) (value : α) :
    keys (insert map key value) = keys map := by
  induction map with
  | nil => cases h
  | cons entry rest ih =>
    obtain ⟨name, old⟩ := entry
    simp only [insert]
    split
    · rfl
    · next hne =>
      have hrest : key ∈ keys rest := (List.mem_cons.mp h).resolve_left (Ne.symm hne)
      simp only [keys, List.map_cons] at ih ⊢
      rw [ih hrest]

/-- Writing under a name that is there changes its entry in its place. -/
theorem insert_eq_map {map : OrderedMap α} (hdistinct : map.Distinct) {key : String} (h : key ∈ keys map) (value : α) :
    insert map key value = map.map fun entry => if entry.1 = key then (key, value) else entry := by
  induction map with
  | nil => cases h
  | cons entry rest ih =>
    obtain ⟨name, old⟩ := entry
    obtain ⟨hname, hrest⟩ := List.nodup_cons.mp hdistinct
    rw [insert, List.map_cons]
    by_cases same : name = key
    · subst same
      have hothers : rest.map (fun entry => if entry.1 = name then (name, value) else entry) = rest := by
        refine (List.map_congr_left fun other hother => if_neg ?_).trans (List.map_id rest)
        rintro rfl
        exact hname (List.mem_map.mpr ⟨other, hother, rfl⟩)
      rw [if_pos rfl, if_pos rfl, hothers]
    · have hlater : key ∈ keys rest := by
        rcases List.mem_cons.mp h with rfl | hlater
        · exact absurd rfl same
        · exact hlater
      rw [if_neg same, if_neg same, ih hrest hlater]

theorem length_insert_of_mem {map : OrderedMap α} {key : String} (h : key ∈ keys map) (value : α) :
    (insert map key value).length = map.length := by
  have hkeys := congrArg List.length (keys_insert_of_mem h value)
  rwa [keys, keys, List.length_map, List.length_map] at hkeys

/-! ### Removing one entry -/

theorem erase_sublist (map : OrderedMap α) (key : String) : (erase map key).Sublist map := by
  induction map with
  | nil => exact List.Sublist.slnil
  | cons entry rest ih =>
    obtain ⟨name, old⟩ := entry
    simp only [erase]
    split
    · exact List.sublist_cons_self _ _
    · exact ih.cons_cons _

theorem foldl_erase_sublist (names : List String) (map : OrderedMap α) : (names.foldl erase map).Sublist map := by
  induction names generalizing map with
  | nil => exact List.Sublist.refl map
  | cons name rest ih => exact (ih _).trans (erase_sublist map name)

theorem get?_erase_of_ne {key other : String} (hne : key ≠ other) (map : OrderedMap α) :
    get? (erase map key) other = get? map other := by
  induction map with
  | nil => rfl
  | cons entry rest ih =>
    obtain ⟨name, old⟩ := entry
    simp only [erase, get?_cons]
    by_cases same : name = key
    · subst same
      rw [if_pos rfl, if_neg hne]
    · rw [if_neg same, get?_cons, ih]

theorem get?_put_of_ne {key other : String} (hne : key ≠ other) (map : OrderedMap α) (value? : Option α) :
    get? (put map key value?) other = get? map other := by
  cases value? with
  | none => exact get?_erase_of_ne hne map
  | some value => exact get?_insert_of_ne hne map value

theorem get?_erase_self {map : OrderedMap α} (hdistinct : map.Distinct) (key : String) : get? (erase map key) key = none := by
  induction map with
  | nil => rfl
  | cons entry rest ih =>
    obtain ⟨name, old⟩ := entry
    obtain ⟨hname, hrest⟩ := List.nodup_cons.mp hdistinct
    simp only [erase]
    by_cases same : name = key
    · subst same
      rw [if_pos rfl]
      exact get?_eq_none_iff.mpr hname
    · rw [if_neg same, get?_cons, if_neg same, ih hrest]

theorem get?_put_self {map : OrderedMap α} (hdistinct : map.Distinct) (key : String) (value? : Option α) :
    get? (put map key value?) key = value? := by
  cases value? with
  | none => exact get?_erase_self hdistinct key
  | some value => exact get?_insert_self map key value

theorem get?_foldl_erase {names : List String} {other : String} (hother : other ∉ names) (map : OrderedMap α) :
    get? (names.foldl erase map) other = get? map other := by
  induction names generalizing map with
  | nil => rfl
  | cons name rest ih =>
    rw [List.mem_cons, not_or] at hother
    rw [List.foldl_cons, ih hother.2, get?_erase_of_ne (Ne.symm hother.1)]

/-- What is written under a name makes no difference to the other entries and their order. -/
theorem filter_insert_other (map : OrderedMap α) (key : String) (value : α) :
    filter (fun name _ => name != key) (insert map key value) = filter (fun name _ => name != key) map := by
  induction map with
  | nil => simp [insert, filter]
  | cons entry rest ih =>
    obtain ⟨name, old⟩ := entry
    simp only [filter] at ih
    by_cases same : name = key <;> simp [insert, filter, same, ih]

theorem filter_erase_other (map : OrderedMap α) (key : String) :
    filter (fun name _ => name != key) (erase map key) = filter (fun name _ => name != key) map := by
  induction map with
  | nil => rfl
  | cons entry rest ih =>
    obtain ⟨name, old⟩ := entry
    simp only [filter] at ih
    by_cases same : name = key <;> simp [erase, filter, same, ih]

/-- The entries of one name. -/
theorem filter_key {map : OrderedMap α} (hdistinct : map.Distinct) (key : String) :
    List.filter (fun entry => entry.1 == key) map = ((get? map key).map fun value => (key, value)).toList := by
  induction map with
  | nil => rfl
  | cons entry rest ih =>
    obtain ⟨name, value⟩ := entry
    obtain ⟨hname, hrest⟩ := List.nodup_cons.mp hdistinct
    rw [List.filter_cons, ih hrest, get?_cons]
    by_cases same : name = key
    · subst same
      rw [get?_eq_none_iff.mpr hname]
      simp
    · simp [same]

/-! ### Writing and selecting many entries -/

theorem get?_extend_of_not_mem {map entries : OrderedMap α} {key : String} (h : key ∉ keys entries) :
    get? (extend map entries) key = get? map key := by
  induction entries generalizing map with
  | nil => rfl
  | cons entry rest ih =>
    obtain ⟨name, value⟩ := entry
    simp only [keys, List.map_cons, List.mem_cons, not_or] at h
    exact (ih h.2).trans (get?_insert_of_ne (Ne.symm h.1) map value)

theorem get?_extend {map entries : OrderedMap α} (hdistinct : entries.Distinct) (key : String) :
    get? (extend map entries) key = (get? entries key).or (get? map key) := by
  induction entries generalizing map with
  | nil => rfl
  | cons entry rest ih =>
    obtain ⟨name, value⟩ := entry
    obtain ⟨hname, hrest⟩ := List.nodup_cons.mp hdistinct
    show get? (extend (insert map name value) rest) key = _
    rw [ih hrest, get?_insert, get?_cons]
    by_cases same : name = key
    · subst same
      rw [if_pos rfl, if_pos rfl, get?_eq_none_iff.mpr hname]
      rfl
    · rw [if_neg same, if_neg same]

theorem contains_extend {map : OrderedMap α} {key : String} (h : contains map key = true) (entries : OrderedMap α) :
    contains (extend map entries) key = true := by
  induction entries generalizing map with
  | nil => exact h
  | cons entry rest ih =>
    apply ih
    rw [contains, get?_insert]
    split
    · rfl
    · exact h

theorem mem_keys_iff {map : OrderedMap α} {key : String} : key ∈ keys map ↔ ∃ value, (key, value) ∈ map := by
  simp [keys]

theorem contains_extend_of_mem {map entries : OrderedMap α} {key : String} (h : key ∈ keys entries) :
    contains (extend map entries) key = true := by
  induction entries generalizing map with
  | nil => cases h
  | cons entry rest ih =>
    rcases List.mem_cons.mp h with rfl | hlater
    · refine contains_extend ?_ rest
      rw [contains, get?_insert_self]
      rfl
    · exact ih hlater

theorem mem_extend {map entries : OrderedMap α} {entry : String × α} (h : entry ∈ extend map entries) :
    entry ∈ map ∨ entry ∈ entries := by
  induction entries generalizing map with
  | nil => exact Or.inl h
  | cons first rest ih =>
    rcases ih h with h | h
    · rcases mem_insert h with rfl | h
      · exact Or.inr List.mem_cons_self
      · exact Or.inl h
    · exact Or.inr (List.mem_cons_of_mem _ h)

theorem insert_append_of_not_mem {map : OrderedMap α} {key : String} (h : key ∉ keys map) (rest : OrderedMap α) (value : α) :
    insert (map ++ rest) key value = map ++ insert rest key value := by
  induction map with
  | nil => rfl
  | cons entry map ih =>
    obtain ⟨name, old⟩ := entry
    simp only [keys, List.map_cons, List.mem_cons, not_or] at h
    rw [List.cons_append, insert, if_neg (Ne.symm h.1), ih h.2, List.cons_append]

theorem insert_of_not_mem {map : OrderedMap α} {key : String} (h : key ∉ keys map) (value : α) :
    insert map key value = map ++ [(key, value)] := by
  simpa [insert] using insert_append_of_not_mem h [] value

/-- Writes under other names leave the entries of a map as they are. -/
theorem extend_append_of_not_mem {map entries : OrderedMap α} (h : ∀ name ∈ keys entries, name ∉ keys map) (rest : OrderedMap α) :
    extend (map ++ rest) entries = map ++ extend rest entries := by
  induction entries generalizing rest with
  | nil => rfl
  | cons entry entries ih =>
    have hentry : entry.1 ∉ keys map := h entry.1 List.mem_cons_self
    show extend (insert (map ++ rest) entry.1 entry.2) entries = map ++ extend (insert rest entry.1 entry.2) entries
    rw [insert_append_of_not_mem hentry, ih fun name hname => h name (List.mem_cons_of_mem _ hname)]

theorem extend_eq_append {map entries : OrderedMap α} (h : Distinct (map ++ entries)) : extend map entries = map ++ entries := by
  induction entries generalizing map with
  | nil => exact (List.append_nil map).symm
  | cons entry rest ih =>
    have hnew : entry.1 ∉ keys map := by
      rw [Distinct, keys, List.map_append, List.map_cons] at h
      exact fun hmem => (List.nodup_append.mp h).2.2 _ hmem _ List.mem_cons_self rfl
    have hsame : map ++ entry :: rest = map ++ [entry] ++ rest := (List.append_cons map entry rest)
    show extend (insert map entry.1 entry.2) rest = map ++ entry :: rest
    rw [insert_of_not_mem hnew, hsame]
    rw [hsame] at h
    exact ih h

/-! ### Distinct names -/

instance (map : OrderedMap α) : Decidable map.Distinct := inferInstanceAs (Decidable (keys map).Nodup)

theorem mem_keys_insert {map : OrderedMap α} {key other : String} {value : α} (h : other ∈ keys (insert map key value)) :
    other = key ∨ other ∈ keys map := by
  obtain ⟨found, hfound⟩ := mem_keys_iff.mp h
  rcases mem_insert hfound with hnew | hold
  · exact Or.inl (congrArg Prod.fst hnew)
  · exact Or.inr (mem_keys_iff.mpr ⟨found, hold⟩)

theorem distinct_insert {map : OrderedMap α} (h : map.Distinct) (key : String) (value : α) : (insert map key value).Distinct := by
  induction map with
  | nil => exact List.nodup_cons.mpr ⟨List.not_mem_nil, List.nodup_nil⟩
  | cons entry rest ih =>
    obtain ⟨name, old⟩ := entry
    obtain ⟨hname, hrest⟩ := List.nodup_cons.mp h
    simp only [insert]
    split
    · exact h
    · next hne =>
      refine List.nodup_cons.mpr ⟨fun hmem => ?_, ih hrest⟩
      rcases mem_keys_insert hmem with hkey | hold
      · exact hne hkey
      · exact hname hold

theorem distinct_put {map : OrderedMap α} (h : map.Distinct) (key : String) (value? : Option α) : (put map key value?).Distinct := by
  cases value? with
  | none => exact h.sublist ((erase_sublist map key).map Prod.fst)
  | some value => exact distinct_insert h key value

theorem distinct_extend {map : OrderedMap α} (h : map.Distinct) (entries : OrderedMap α) : (extend map entries).Distinct := by
  induction entries generalizing map with
  | nil => exact h
  | cons entry rest ih => exact ih (distinct_insert h entry.1 entry.2)

theorem distinct_filter {map : OrderedMap α} (h : map.Distinct) (test : String → α → Bool) : (filter test map).Distinct :=
  h.sublist (List.filter_sublist.map Prod.fst)

theorem distinct_ofList (entries : List (String × α)) : (ofList entries).Distinct :=
  distinct_extend (show (keys ([] : OrderedMap α)).Nodup from List.nodup_nil) entries

/-- A name that is written has one of the values that are written under it. -/
theorem exists_get?_ofList {entries : List (String × α)} {key : String} (h : key ∈ keys entries) :
    ∃ value, get? (ofList entries) key = some value ∧ (key, value) ∈ entries := by
  obtain ⟨value, hvalue⟩ := Option.isSome_iff_exists.mp (@contains_extend_of_mem _ [] _ _ h)
  exact ⟨value, hvalue, (mem_extend (mem_of_get? hvalue)).resolve_left List.not_mem_nil⟩

/-- Writes under distinct names leave the entries as they are. -/
theorem ofList_of_distinct {entries : OrderedMap α} (h : Distinct entries) : ofList entries = entries :=
  @extend_eq_append _ [] _ h

theorem mem_mapKeys {rename : String → String} {map : OrderedMap α} {key : String} {value : α}
    (h : (key, value) ∈ mapKeys rename map) : ∃ name, (name, value) ∈ map ∧ rename name = key := by
  rcases mem_extend h with h | h
  · cases h
  · obtain ⟨⟨name, other⟩, hentry, same⟩ := List.mem_map.mp h
    cases same
    exact ⟨name, hentry, rfl⟩

theorem mapKeys_eq_self {rename : String → String} {map : OrderedMap α} (hdistinct : map.Distinct)
    (h : ∀ key ∈ keys map, rename key = key) : mapKeys rename map = map := by
  have hsame : map.map (fun entry => (rename entry.1, entry.2)) = map := by
    refine (List.map_congr_left fun entry hentry => ?_).trans (List.map_id map)
    rw [h entry.1 (mem_keys_iff.mpr ⟨entry.2, hentry⟩)]
    rfl
  rw [mapKeys, hsame, ofList_of_distinct hdistinct]

theorem get?_map {β : Type u} (f : α → β) (map : OrderedMap α) (key : String) :
    get? (map.map fun entry => (entry.1, f entry.2)) key = (get? map key).map f := by
  induction map with
  | nil => rfl
  | cons entry rest ih =>
    obtain ⟨name, value⟩ := entry
    rw [List.map_cons, get?_cons, get?_cons, ih]
    split <;> rfl

theorem insert_insert (map : OrderedMap α) (key : String) (first second : α) :
    insert (insert map key first) key second = insert map key second := by
  induction map with
  | nil => simp [insert]
  | cons entry rest ih =>
    obtain ⟨name, value⟩ := entry
    by_cases same : name = key <;> simp [insert, same, ih]

theorem get?_filter (test : String → Bool) (map : OrderedMap α) (key : String) :
    get? (filter (fun name _ => test name) map) key = if test key then get? map key else none := by
  induction map with
  | nil => simp [filter]
  | cons entry rest ih =>
    obtain ⟨name, value⟩ := entry
    simp only [filter] at ih
    simp only [filter, List.filter_cons, get?_cons]
    by_cases same : name = key
    · subst same
      cases hit : test name <;> simp [hit, ih, get?_cons]
    · cases hit : test name <;> simp [ih, get?_cons, same]

theorem keys_filter (test : String → Bool) (map : OrderedMap α) :
    keys (filter (fun name _ => test name) map) = (keys map).filter test := by
  simp only [keys, filter, List.filter_map]
  rfl

theorem erase_eq_filter {map : OrderedMap α} (hdistinct : map.Distinct) (key : String) :
    erase map key = filter (fun name _ => name != key) map := by
  induction map with
  | nil => rfl
  | cons entry rest ih =>
    obtain ⟨name, value⟩ := entry
    obtain ⟨hname, hrest⟩ := List.nodup_cons.mp hdistinct
    have hlater := ih hrest
    rw [filter] at hlater
    rw [erase, filter, List.filter_cons]
    split
    · next same =>
      subst same
      have hothers : rest.filter (fun entry => entry.1 != name) = rest := List.filter_eq_self.mpr fun other hother => by
        refine bne_iff_ne.mpr ?_
        rintro rfl
        exact hname (List.mem_map.mpr ⟨other, hother, rfl⟩)
      rw [if_neg (by simp), hothers]
    · next hne => rw [if_pos (bne_iff_ne.mpr hne), hlater]

theorem foldl_erase_eq_filter {map : OrderedMap α} (hdistinct : map.Distinct) (names : List String) :
    names.foldl erase map = filter (fun name _ => !names.contains name) map := by
  induction names generalizing map with
  | nil => exact (List.filter_eq_self.mpr fun _ _ => rfl).symm
  | cons name names ih =>
    rw [List.foldl_cons, erase_eq_filter hdistinct, ih (distinct_filter hdistinct _), filter, filter, filter, List.filter_filter]
    refine List.filter_congr fun entry _ => ?_
    rw [List.contains_cons, Bool.not_or]
    exact Bool.and_comm _ _

/-- A renaming that keeps the names apart renames each entry in its place. -/
theorem mapKeys_eq_map {rename : String → String} {map : OrderedMap α} (h : ((keys map).map rename).Nodup) :
    mapKeys rename map = map.map fun entry => (rename entry.1, entry.2) := by
  refine ofList_of_distinct ?_
  rw [Distinct, keys, List.map_map]
  rw [keys, List.map_map] at h
  exact h

/-! ### Maps in another order -/

theorem Distinct.nodup {map : OrderedMap α} (h : map.Distinct) : map.Nodup := by
  refine (List.pairwise_map.mp h).imp ?_
  rintro first second hnames rfl
  exact hnames rfl

theorem Distinct.of_perm {map other : OrderedMap α} (h : map.Distinct) (hperm : other.Perm map) : other.Distinct :=
  (hperm.map Prod.fst).nodup_iff.mpr h

theorem mem_iff_get? {map : OrderedMap α} (hdistinct : map.Distinct) {key : String} {value : α} :
    (key, value) ∈ map ↔ get? map key = some value :=
  ⟨get?_of_mem hdistinct, mem_of_get?⟩

/-- Maps in which every name is found alike have the same entries. -/
theorem perm_of_get?_eq {map other : OrderedMap α} (hmap : map.Distinct) (hother : other.Distinct)
    (h : ∀ key, get? map key = get? other key) : map.Perm other := by
  refine (List.perm_ext_iff_of_nodup hmap.nodup hother.nodup).mpr ?_
  rintro ⟨key, value⟩
  rw [mem_iff_get? hmap, mem_iff_get? hother, h]

section Matched

variable {map other : OrderedMap α} (hmap : map.Distinct) (hlength : map.length = other.length)
  (related : α → α → Prop) (h : ∀ entry ∈ map, ∃ value, get? other entry.1 = some value ∧ related entry.2 value)

include hmap hlength h

/-- If every entry of a map is matched under its name in a map of the same size, then the other map can be put into the order of the first. -/
theorem exists_arranged :
    ∃ arranged, arranged.Perm other ∧ List.Forall₂ (fun entry found => entry.1 = found.1 ∧ related entry.2 found.2) map arranged := by
  let found (entry : String × α) : String × α := (entry.1, (get? other entry.1).getD entry.2)
  have hfound : ∀ entry ∈ map, get? other entry.1 = some (found entry).2 ∧ related entry.2 (found entry).2 := by
    intro entry hentry
    obtain ⟨value, hvalue, hrelated⟩ := h entry hentry
    simp only [found, hvalue, Option.getD_some, true_and]
    exact hrelated
  have hdistinct : Distinct (map.map found) := by
    rw [Distinct, keys, List.map_map]
    exact hmap
  have hsubset : map.map found ⊆ other := by
    intro entry hentry
    obtain ⟨origin, horigin, rfl⟩ := List.mem_map.mp hentry
    exact mem_of_get? (hfound origin horigin).1
  refine ⟨map.map found, ?_, ?_⟩
  · exact (List.subperm_of_subset hdistinct.nodup hsubset).perm_of_length_le (by simp [hlength])
  · rw [List.forall₂_map_right_iff, List.forall₂_same]
    exact fun entry hentry => ⟨rfl, (hfound entry hentry).2⟩

/-- Of two maps of one size, one matches the entries of the other if it is matched itself. -/
theorem matched_of_matched :
    ∀ entry ∈ other, ∃ value, get? map entry.1 = some value ∧ related value entry.2 := by
  obtain ⟨arranged, hperm, hmatched⟩ := exists_arranged hmap hlength related h
  intro entry hentry
  obtain ⟨origin, horigin, hname, hrelated⟩ := exists_left_of_forall₂ hmatched (hperm.mem_iff.mpr hentry)
  exact ⟨origin.2, hname ▸ get?_of_mem hmap horigin, hrelated⟩

end Matched

end OrderedMap

end ObjectStore
