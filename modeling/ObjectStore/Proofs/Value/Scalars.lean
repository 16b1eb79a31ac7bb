import ObjectStore.Proofs.OrderedMap
import ObjectStore.Proofs.Value.Induction
import ObjectStore.Proofs.Value.Order

/-!
# Scalars inside a value

What is inside a value at any depth, and values whose scalars are replaced while arrays and objects stay as they are.
-/

namespace ObjectStore

namespace Value

/-- One value is another one or is inside it. -/
inductive Within : Value → Value → Prop where
  | self (value : Value) : Within value value
  | item {value item : Value} {items : List Value} (hitem : item ∈ items) (hinner : Within value item) :
      Within value (.array items)
  | field {value : Value} {entry : String × Value} {fields : List (String × Value)} (hentry : entry ∈ fields)
      (hinner : Within value entry.2) : Within value (.object fields)

theorem everywhere_iff {test : Value → Bool} {value : Value} :
    everywhere test value = true ↔ ∀ inner, Within inner value → test inner = true := by
  constructor
  · intro h inner hinner
    induction hinner with
    | self => exact test_of_everywhere h
    | item hitem _ ih => exact ih ((everywhere_array_iff.mp h).2 _ hitem)
    | field hentry _ ih => exact ih ((everywhere_object_iff.mp h).2 _ hentry)
  · intro h
    induction value using nestedInduction with
    | scalar value hscalar =>
      have hself := h value (.self value)
      cases value with
      | array items => cases hscalar
      | object fields => cases hscalar
      | _ => exact hself
    | array items ih =>
      rw [everywhere_array_iff]
      exact ⟨h _ (.self _), fun item hitem => ih item hitem fun inner hinner => h inner (.item hitem hinner)⟩
    | object fields ih =>
      rw [everywhere_object_iff]
      exact ⟨h _ (.self _), fun entry hentry => ih entry hentry fun inner hinner => h inner (.field hentry hinner)⟩

/-! ### Other scalars in the same places -/

mutual

def mapScalars (f : Value → Value) : Value → Value
  | array items => array (mapItems f items)
  | object fields => object (mapFields f fields)
  | scalar => f scalar
termination_by structural value => value

def mapItems (f : Value → Value) : List Value → List Value
  | [] => []
  | item :: items => mapScalars f item :: mapItems f items
termination_by structural items => items

def mapFields (f : Value → Value) : List (String × Value) → List (String × Value)
  | [] => []
  | (name, value) :: fields => (name, mapScalars f value) :: mapFields f fields
termination_by structural fields => fields

end

variable {f g : Value → Value}

theorem mapScalars_scalar {value : Value} (h : value.isScalar = true) : mapScalars f value = f value := by
  cases value with
  | array items => cases h
  | object fields => cases h
  | _ => rfl

theorem mapItems_eq_map (items : List Value) : mapItems f items = items.map (mapScalars f) := by
  induction items with
  | nil => rfl
  | cons item items ih => rw [mapItems, ih, List.map_cons]

theorem mapFields_eq_map (fields : List (String × Value)) :
    mapFields f fields = fields.map fun entry => (entry.1, mapScalars f entry.2) := by
  induction fields with
  | nil => rfl
  | cons entry fields ih => rw [mapFields, ih, List.map_cons]

@[simp] theorem keys_mapFields (fields : List (String × Value)) :
    OrderedMap.keys (mapFields f fields) = OrderedMap.keys fields := by
  rw [mapFields_eq_map, OrderedMap.keys, List.map_map]
  rfl

theorem distinct_mapFields {fields : List (String × Value)} (h : OrderedMap.Distinct fields) :
    OrderedMap.Distinct (mapFields f fields) := by
  rwa [OrderedMap.Distinct, keys_mapFields]

theorem itemsEqBy_map {scalar : Value → Value → Bool} {items : List Value}
    (h : ∀ item ∈ items, eqBy scalar (f item) (g item) = true) :
    itemsEqBy scalar (items.map f) (items.map g) = true := by
  induction items with
  | nil => rfl
  | cons item items ih =>
    rw [List.map_cons, List.map_cons, itemsEqBy, h item List.mem_cons_self, Bool.true_and]
    exact ih fun item hitem => h item (List.mem_cons_of_mem _ hitem)

/-- Equal scalars in the same places make equal values. -/
theorem same_mapScalars {value : Value} (hwell : value.wellFormed = true)
    (h : ∀ inner, Within inner value → inner.isScalar = true → same (f inner) (g inner) = true) :
    same (mapScalars f value) (mapScalars g value) = true := by
  induction value using nestedInduction with
  | scalar value hscalar =>
    rw [mapScalars_scalar hscalar, mapScalars_scalar hscalar]
    exact h value (.self value) hscalar
  | array items ih =>
    obtain ⟨-, hinner⟩ := everywhere_array_iff.mp hwell
    rw [mapScalars, mapScalars, same, eqBy, mapItems_eq_map, mapItems_eq_map]
    exact itemsEqBy_map fun item hitem =>
      ih item hitem (hinner item hitem) fun inner hwithin => h inner (.item hitem hwithin)
  | object fields ih =>
    obtain ⟨hdistinct, hinner⟩ := wellFormed_object_iff.mp hwell
    have hfields : fieldsEqBy sameScalar (mapFields f fields) (mapFields g fields) = true := by
      apply fieldsEqBy_of_forall
      rw [mapFields_eq_map (f := f)]
      intro entry hentry
      obtain ⟨field, hfield, rfl⟩ := List.mem_map.mp hentry
      refine ⟨mapScalars g field.2, OrderedMap.get?_of_mem (distinct_mapFields hdistinct) ?_, ?_⟩
      · rw [mapFields_eq_map]
        exact List.mem_map.mpr ⟨field, hfield, rfl⟩
      · exact ih field hfield (hinner field hfield) fun inner hwithin => h inner (.field hfield hwithin)
    rw [mapScalars, mapScalars, same, eqBy, hfields, Bool.and_true, mapFields_eq_map, mapFields_eq_map, List.length_map,
      List.length_map, beq_iff_eq]

end Value

end ObjectStore
