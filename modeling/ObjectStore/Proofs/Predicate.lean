import ObjectStore.Proofs.Object
import ObjectStore.Query

/-!
# Predicates on records

A conjunction of filters passes the records on which all filters hold. What a predicate says of a record depends on the fields that it reads only. A predicate that consists of equalities reads the fields that it fixes, and it holds when they have the values that it fixes them to. Renaming the fields of a predicate renames what it reads and what it fixes.
-/

namespace ObjectStore

namespace Predicate

theorem passes_conjunction? (filters : List Predicate) (record : Fields) :
    passes (conjunction? filters) record = allHold record filters := by
  match filters with
  | [] => rfl
  | [single] => exact (Bool.and_true _).symm
  | _ :: _ :: _ => rfl

theorem mapKeysOfList_eq_map (rename : String → String) (list : List Predicate) :
    mapKeysOfList rename list = list.map (mapKeys rename) := by
  induction list with
  | nil => rfl
  | cons first rest ih => rw [mapKeysOfList, ih, List.map_cons]

theorem allHold_eq_all (record : Fields) (list : List Predicate) :
    allHold record list = list.all fun predicate => predicate.holds record := by
  induction list with
  | nil => rfl
  | cons first rest ih => rw [allHold, List.all_cons, ih]

/-! ### The fields that a predicate reads -/

end Predicate

/-- Whether a record shows under a new name what another one shows under the old name. A missing field shows as null. -/
def Fields.ShowsAs (rename : String → String) (record other : Fields) (key : String) : Prop :=
  (Operand.key (rename key)).resolve other = (Operand.key key).resolve record

section Renaming

variable {rename : String → String} {record other : Fields}

theorem Operand.resolve_mapKeys {operand : Operand} (h : ∀ key ∈ operand.keys, Fields.ShowsAs rename record other key) :
    (operand.mapKeys rename).resolve other = operand.resolve record := by
  cases operand with
  | key name => exact h name List.mem_cons_self
  | literal value => rfl

theorem Operand.keys_mapKeys (operand : Operand) : (operand.mapKeys rename).keys = operand.keys.map rename := by
  cases operand <;> rfl

theorem Operand.mapKeys_id (operand : Operand) : operand.mapKeys id = operand := by
  cases operand <;> rfl

namespace Predicate

/-- A pattern takes null for a missing field as well, since neither is a string. -/
theorem patternHolds_rename {key : String} (h : Fields.ShowsAs rename record other key) (kind : TextPattern) (text : String) :
    patternHolds other kind (rename key) text = patternHolds record kind key text := by
  rw [Fields.ShowsAs, Operand.resolve, Operand.resolve] at h
  rw [patternHolds, patternHolds]
  cases hother : OrderedMap.get? other (rename key) <;> cases hrecord : OrderedMap.get? record key <;>
    rw [hother, hrecord] at h <;> simp only [Option.getD_none, Option.getD_some] at h <;> subst h <;> rfl

mutual

/-- A predicate with its fields renamed says of one record what the predicate says of another, if the fields that it reads show as the same values. -/
theorem holds_mapKeys (predicate : Predicate) (h : ∀ key ∈ predicate.keys, Fields.ShowsAs rename record other key) :
    (predicate.mapKeys rename).holds other = predicate.holds record := by
  cases predicate with
  | not inner => rw [mapKeys, holds, holds, holds_mapKeys inner h]
  | compare op lhs rhs =>
    obtain ⟨hleft, hright⟩ := List.forall_mem_append.mp h
    rw [mapKeys, holds, holds, Operand.resolve_mapKeys hleft, Operand.resolve_mapKeys hright]
  | elementOf element collection =>
    obtain ⟨helement, hcollection⟩ := List.forall_mem_append.mp h
    rw [mapKeys, holds, holds, Operand.resolve_mapKeys helement, Operand.resolve_mapKeys hcollection]
  | notElementOf element collection =>
    obtain ⟨helement, hcollection⟩ := List.forall_mem_append.mp h
    rw [mapKeys, holds, holds, Operand.resolve_mapKeys helement, Operand.resolve_mapKeys hcollection]
  | between value low high =>
    obtain ⟨hfirst, hhigh⟩ := List.forall_mem_append.mp h
    obtain ⟨hvalue, hlow⟩ := List.forall_mem_append.mp hfirst
    rw [mapKeys, holds, holds, Operand.resolve_mapKeys hvalue, Operand.resolve_mapKeys hlow, Operand.resolve_mapKeys hhigh]
  | notBetween value low high =>
    obtain ⟨hfirst, hhigh⟩ := List.forall_mem_append.mp h
    obtain ⟨hvalue, hlow⟩ := List.forall_mem_append.mp hfirst
    rw [mapKeys, holds, holds, Operand.resolve_mapKeys hvalue, Operand.resolve_mapKeys hlow, Operand.resolve_mapKeys hhigh]
  | pattern kind key text => exact patternHolds_rename (h key List.mem_cons_self) kind text
  | all list => exact allHold_mapKeys list h
  | any list => exact anyHolds_mapKeys list h
termination_by structural predicate

theorem allHold_mapKeys (list : List Predicate) (h : ∀ key ∈ keysOfList list, Fields.ShowsAs rename record other key) :
    allHold other (mapKeysOfList rename list) = allHold record list := by
  cases list with
  | nil => rfl
  | cons first rest =>
    obtain ⟨hfirst, hrest⟩ := List.forall_mem_append.mp h
    rw [mapKeysOfList, allHold, allHold, holds_mapKeys first hfirst, allHold_mapKeys rest hrest]
termination_by structural list

theorem anyHolds_mapKeys (list : List Predicate) (h : ∀ key ∈ keysOfList list, Fields.ShowsAs rename record other key) :
    anyHolds other (mapKeysOfList rename list) = anyHolds record list := by
  cases list with
  | nil => rfl
  | cons first rest =>
    obtain ⟨hfirst, hrest⟩ := List.forall_mem_append.mp h
    rw [mapKeysOfList, anyHolds, anyHolds, holds_mapKeys first hfirst, anyHolds_mapKeys rest hrest]
termination_by structural list

end

mutual

theorem keys_mapKeys (predicate : Predicate) : (predicate.mapKeys rename).keys = predicate.keys.map rename := by
  cases predicate with
  | not inner => exact keys_mapKeys inner
  | compare op lhs rhs => rw [mapKeys, keys, keys, Operand.keys_mapKeys, Operand.keys_mapKeys, List.map_append]
  | elementOf element collection => rw [mapKeys, keys, keys, Operand.keys_mapKeys, Operand.keys_mapKeys, List.map_append]
  | notElementOf element collection => rw [mapKeys, keys, keys, Operand.keys_mapKeys, Operand.keys_mapKeys, List.map_append]
  | between value low high =>
    rw [mapKeys, keys, keys, Operand.keys_mapKeys, Operand.keys_mapKeys, Operand.keys_mapKeys, List.map_append, List.map_append]
  | notBetween value low high =>
    rw [mapKeys, keys, keys, Operand.keys_mapKeys, Operand.keys_mapKeys, Operand.keys_mapKeys, List.map_append, List.map_append]
  | pattern kind key text => rfl
  | all list => exact keysOfList_mapKeys list
  | any list => exact keysOfList_mapKeys list
termination_by structural predicate

theorem keysOfList_mapKeys (list : List Predicate) : keysOfList (mapKeysOfList rename list) = (keysOfList list).map rename := by
  cases list with
  | nil => rfl
  | cons first rest => rw [mapKeysOfList, keysOfList, keysOfList, keys_mapKeys first, keysOfList_mapKeys rest, List.map_append]
termination_by structural list

end

mutual

theorem mapKeys_id (predicate : Predicate) : predicate.mapKeys id = predicate := by
  cases predicate with
  | not inner => rw [mapKeys, mapKeys_id inner]
  | compare | elementOf | notElementOf | between | notBetween => simp only [mapKeys, Operand.mapKeys_id]
  | pattern kind key text => rfl
  | all list => rw [mapKeys, mapKeysOfList_id list]
  | any list => rw [mapKeys, mapKeysOfList_id list]
termination_by structural predicate

theorem mapKeysOfList_id (list : List Predicate) : mapKeysOfList id list = list := by
  cases list with
  | nil => rfl
  | cons first rest => rw [mapKeysOfList, mapKeys_id first, mapKeysOfList_id rest]
termination_by structural list

end

theorem allHold_congr (list : List Predicate) (h : ∀ key ∈ keysOfList list, OrderedMap.get? record key = OrderedMap.get? other key) :
    allHold record list = allHold other list := by
  have hshows (key : String) (hkey : key ∈ keysOfList list) : Fields.ShowsAs id other record key := by
    rw [Fields.ShowsAs, Operand.resolve, Operand.resolve, id_eq, h key hkey]
  rw [← allHold_mapKeys list hshows, mapKeysOfList_id]

end Predicate

end Renaming

namespace Predicate

/-! ### Equalities -/

mutual

/-- Whether a predicate consists of equalities between a key and a literal, under conjunctions only. -/
def isEqualities : Predicate → Bool
  | compare .equal (.key _) (.literal _) | compare .equal (.literal _) (.key _) => true
  | all parts => areEqualities parts
  | _ => false
termination_by structural predicate => predicate

def areEqualities : List Predicate → Bool
  | [] => true
  | part :: parts => isEqualities part && areEqualities parts
termination_by structural parts => parts

end

section Induction

variable {one : Predicate → Prop} {many : List Predicate → Prop}

mutual

/-- A fact about equalities is proved for both ways to write one, and for conjunctions from their parts. -/
theorem equalitiesInduction (left : ∀ key value, one (compare .equal (.key key) (.literal value)))
    (right : ∀ key value, one (compare .equal (.literal value) (.key key))) (conjunction : ∀ parts, many parts → one (all parts))
    (nil : many []) (cons : ∀ part parts, one part → many parts → many (part :: parts)) (predicate : Predicate)
    (h : predicate.isEqualities = true) : one predicate := by
  cases predicate with
  | compare op lhs rhs =>
    cases op with
    | equal =>
      cases lhs with
      | key name =>
        cases rhs with
        | key other => cases h
        | literal value => exact left name value
      | literal value =>
        cases rhs with
        | key name => exact right name value
        | literal other => cases h
    | _ => cases lhs <;> cases rhs <;> cases h
  | all parts => exact conjunction parts (equalitiesInduction_parts left right conjunction nil cons parts h)
  | not inner => cases h
  | elementOf element collection => cases h
  | notElementOf element collection => cases h
  | between value low high => cases h
  | notBetween value low high => cases h
  | pattern kind key text => cases h
  | any parts => cases h
termination_by structural predicate

theorem equalitiesInduction_parts (left : ∀ key value, one (compare .equal (.key key) (.literal value)))
    (right : ∀ key value, one (compare .equal (.literal value) (.key key))) (conjunction : ∀ parts, many parts → one (all parts))
    (nil : many []) (cons : ∀ part parts, one part → many parts → many (part :: parts)) (parts : List Predicate)
    (h : areEqualities parts = true) : many parts := by
  cases parts with
  | nil => exact nil
  | cons part parts =>
    obtain ⟨hpart, hparts⟩ := Bool.and_eq_true_iff.mp h
    exact cons part parts (equalitiesInduction left right conjunction nil cons part hpart)
      (equalitiesInduction_parts left right conjunction nil cons parts hparts)
termination_by structural parts

end

end Induction

theorem keysOfList_of_areEqualities {filters : List Predicate} (h : areEqualities filters = true) :
    keysOfList filters = OrderedMap.keys (equalitiesOfList filters) := by
  refine @equalitiesInduction_parts (fun predicate => predicate.keys = OrderedMap.keys predicate.equalities)
    (fun parts => keysOfList parts = OrderedMap.keys (equalitiesOfList parts)) (fun _ _ => rfl) (fun _ _ => rfl)
    (fun _ hparts => hparts) rfl (fun part parts hpart hparts => ?_) filters h
  rw [keysOfList, equalitiesOfList, hpart, hparts]
  exact List.map_append.symm

/-- Whether a record has the values that equalities fix, and each of them is equal to itself. -/
def Fixed (record : Fields) (equalities : List (String × Value)) : Prop :=
  ∀ entry ∈ equalities, OrderedMap.get? record entry.1 = some entry.2 ∧ entry.2.looselyEquals entry.2 = true

theorem allHold_of_fixed {record : Fields} {filters : List Predicate} (h : areEqualities filters = true)
    (hfixed : Fixed record (equalitiesOfList filters)) : allHold record filters = true := by
  have hequal (key : String) (value : Value) (h : Fixed record [(key, value)]) :
      (compare .equal (.key key) (.literal value)).holds record = true ∧
        (compare .equal (.literal value) (.key key)).holds record = true := by
    obtain ⟨hget, hsame⟩ := h (key, value) List.mem_cons_self
    simp only [holds, Operand.resolve, hget, Option.getD_some, Comparison.holds]
    exact ⟨hsame, hsame⟩
  refine @equalitiesInduction_parts (fun predicate => Fixed record predicate.equalities → predicate.holds record = true)
    (fun parts => Fixed record (equalitiesOfList parts) → allHold record parts = true) (fun key value h => (hequal key value h).1)
    (fun key value h => (hequal key value h).2) (fun _ hparts => hparts) (fun _ => rfl) (fun part parts hpart hparts h => ?_)
    filters h hfixed
  obtain ⟨hfirst, hrest⟩ := List.forall_mem_append.mp h
  rw [allHold, hpart hfirst, hparts hrest, Bool.and_true]

/-- Whether a record has a value that is loosely equal, seen from one side at least, to what an equality fixes. -/
def Meets (record : Fields) (equality : String × Value) : Prop :=
  ((Operand.key equality.1).resolve record).looselyEquals equality.2 = true ∨
    equality.2.looselyEquals ((Operand.key equality.1).resolve record) = true

mutual

theorem meets_of_holds {record : Fields} (predicate : Predicate) (h : predicate.holds record = true) :
    ∀ equality ∈ predicate.equalities, Meets record equality := by
  cases predicate with
  | compare op lhs rhs =>
    cases op with
    | equal =>
      cases lhs with
      | key name =>
        cases rhs with
        | key other => exact nofun
        | literal value => exact List.forall_mem_singleton.mpr (.inl h)
      | literal value =>
        cases rhs with
        | key name => exact List.forall_mem_singleton.mpr (.inr h)
        | literal other => exact nofun
    | _ => cases lhs <;> cases rhs <;> exact nofun
  | all parts => exact meets_of_allHold parts h
  | not inner => exact nofun
  | elementOf element collection => exact nofun
  | notElementOf element collection => exact nofun
  | between value low high => exact nofun
  | notBetween value low high => exact nofun
  | pattern kind key text => exact nofun
  | any parts => exact nofun
termination_by structural predicate

theorem meets_of_allHold {record : Fields} (parts : List Predicate) (h : allHold record parts = true) :
    ∀ equality ∈ equalitiesOfList parts, Meets record equality := by
  cases parts with
  | nil => exact nofun
  | cons part parts =>
    obtain ⟨hpart, hparts⟩ := Bool.and_eq_true_iff.mp h
    exact List.forall_mem_append.mpr ⟨meets_of_holds part hpart, meets_of_allHold parts hparts⟩
termination_by structural parts

end

variable (rename : String → String)

/-- Renaming keeps equalities, and renames the fields that they fix. -/
theorem equalitiesOfList_map_mapKeys {filters : List Predicate} (h : areEqualities filters = true) :
    areEqualities (filters.map (mapKeys rename)) = true ∧
      equalitiesOfList (filters.map (mapKeys rename)) = (equalitiesOfList filters).map fun entry => (rename entry.1, entry.2) := by
  rw [← mapKeysOfList_eq_map]
  refine @equalitiesInduction_parts
    (fun predicate => (predicate.mapKeys rename).isEqualities = true ∧
      (predicate.mapKeys rename).equalities = predicate.equalities.map fun entry => (rename entry.1, entry.2))
    (fun parts => areEqualities (mapKeysOfList rename parts) = true ∧
      equalitiesOfList (mapKeysOfList rename parts) = (equalitiesOfList parts).map fun entry => (rename entry.1, entry.2))
    (fun _ _ => ⟨rfl, rfl⟩) (fun _ _ => ⟨rfl, rfl⟩) (fun _ hparts => hparts) ⟨rfl, rfl⟩ (fun part parts hpart hparts => ?_) filters h
  rw [mapKeysOfList, areEqualities, equalitiesOfList, equalitiesOfList, hpart.1, hpart.2, hparts.1, hparts.2, List.map_append]
  exact ⟨rfl, rfl⟩

end Predicate

end ObjectStore
