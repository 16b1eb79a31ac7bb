import ObjectStore.Proofs.Relational.Schema

/-!
# Writers at a catalog

Bringing a table up to date takes single steps at a catalog: looking a table up, creating one, adding columns to one. A writer is the tree of the steps that may follow, with a branch for every answer. The tables of a catalog answer the steps: to create a table that is there changes nothing, and to add columns changes only what is missing, both without a word.
-/

namespace ObjectStore

namespace Relational

/-- The tables of a catalog, in the order in which a look-up goes through them. -/
abbrev Tables := List Table

/-- A step at a catalog. -/
inductive Access where
  | lookup (name : String)
  | create (name : String) (columns : Definitions)
  | add (name : String) (columns : Definitions)
deriving DecidableEq

def Access.Answer : Access → Type
  | lookup _ => Option Table
  | create _ _ | add _ _ => Unit

def Access.isDefinition : Access → Bool
  | lookup _ => false
  | create _ _ | add _ _ => true

/-- A table with more columns. One that is there already keeps its type. -/
def Table.addNew (table : Table) (columns : Definitions) : Table :=
  { table with columns := columns.foldl (fun known column => OrderedMap.insertNew known column.1 column.2) table.columns }

namespace Tables

/-- The table of exactly a name. -/
def get? (tables : Tables) (name : String) : Option Table := tables.find? fun table => table.name == name

/-- The table of a name in any case, where the one of exactly that name comes first. -/
def lookup (fold : String → String) (tables : Tables) (name : String) : Option Table :=
  (tables.get? name).or (tables.find? fun table => fold table.name == fold name)

def answer (fold : String → String) (tables : Tables) : (access : Access) → access.Answer
  | .lookup name => tables.lookup fold name
  | .create _ _ | .add _ _ => ()

def after (tables : Tables) : Access → Tables
  | .lookup _ => tables
  | .create name columns => if (tables.get? name).isSome then tables else tables ++ [Table.create name columns]
  | .add name columns => tables.map fun table => if table.name = name then table.addNew columns else table

end Tables

inductive Writer (α : Type) : Type where
  | done (result : α)
  | step (access : Access) (next : Outcome access.Answer → Writer α)

namespace Writer

variable {α β : Type}

def bind : Writer α → (α → Writer β) → Writer β
  | done result, k => k result
  | step access next, k => step access fun answer => (next answer).bind k

instance : Monad Writer where
  pure := done
  bind := bind

def catalog : Catalog Writer where
  table? name := step (.lookup name) done
  createTable name columns := step (.create name columns) done
  addColumns name columns := step (.add name columns) done

end Writer

/-! ### Tables after a step -/

theorem Table.column?_addNew (table : Table) (columns : Definitions) (name : String) :
    (table.addNew columns).column? name = (table.column? name).or (OrderedMap.get? columns name) := by
  induction columns generalizing table with
  | nil => simp [addNew]
  | cons column rest ih =>
    have hrest := ih { table with columns := OrderedMap.insertNew table.columns column.1 column.2 }
    simp only [addNew, column?, List.foldl_cons] at hrest ⊢
    rw [hrest, OrderedMap.get?_cons, OrderedMap.insertNew, OrderedMap.contains]
    by_cases hname : column.1 = name
    · subst hname
      cases hknown : OrderedMap.get? table.columns column.1 <;> simp [hknown]
    · split <;> simp [OrderedMap.get?_insert_of_ne hname]

/-- To add columns is to add the missing ones. -/
theorem Table.addNew_eq (table : Table) {columns : Definitions} (hdistinct : OrderedMap.Distinct columns) :
    table.addNew columns = table.addColumns (table.missing columns) := by
  induction columns generalizing table with
  | nil => rfl
  | cons column rest ih =>
    obtain ⟨hname, hrest⟩ := List.nodup_cons.mp hdistinct
    have hstep := ih { table with columns := OrderedMap.insertNew table.columns column.1 column.2 } hrest
    simp only [addNew, addColumns, missing, hasColumn, Table.mk.injEq, true_and, List.foldl_cons, List.filter_cons] at hstep ⊢
    rw [hstep]
    cases hknown : OrderedMap.contains table.columns column.1 with
    | true => simp [OrderedMap.insertNew, hknown]
    | false =>
      have hsame : rest.filter (fun other => !OrderedMap.contains (OrderedMap.insert table.columns column.1 column.2) other.1) =
          rest.filter fun other => !OrderedMap.contains table.columns other.1 := by
        apply List.filter_congr
        intro other hother
        have hne : column.1 ≠ other.1 := by
          intro same
          exact hname (List.mem_map.mpr ⟨other, hother, same.symm⟩)
        simp [OrderedMap.contains, OrderedMap.get?_insert_of_ne hne]
      simp [OrderedMap.insertNew, hknown, hsame, OrderedMap.extend]

theorem Table.missing_missing (table : Table) (definitions : Definitions) :
    table.missing (table.missing definitions) = table.missing definitions := by
  simp [Table.missing, List.filter_filter]

namespace Tables

variable {fold : String → String} {tables : Tables} {name : String} {table : Table}

theorem name_of_get? (h : tables.get? name = some table) : table.name = name := by
  simpa using List.find?_some h

/-- The table that a look-up finds is the one of its own name. -/
theorem get?_of_lookup (h : tables.lookup fold name = some table) : tables.get? table.name = some table := by
  rw [lookup, Option.or_eq_some_iff] at h
  rcases h with hexact | ⟨-, hfolded⟩
  · rwa [name_of_get? hexact]
  · obtain ⟨hmatch, front, back, rfl, hfront⟩ := List.find?_eq_some_iff_append.mp hfolded
    refine List.find?_eq_some_iff_append.mpr ⟨by simp, front, back, rfl, fun other hother => ?_⟩
    have hother := hfront other hother
    simp only [Bool.not_eq_true', beq_eq_false_iff_ne, beq_iff_eq] at hother hmatch ⊢
    intro same
    exact hother (same ▸ hmatch)

theorem get?_eq_none_of_lookup (h : tables.lookup fold name = none) : tables.get? name = none :=
  (Option.or_eq_none_iff.mp h).1

theorem lookup_of_get? (h : tables.get? name = some table) : tables.lookup fold name = some table := by
  rw [lookup, h, Option.some_or]

theorem get?_after_create (tables : Tables) (name : String) (columns : Definitions) (other : String) :
    (tables.after (.create name columns)).get? other =
      (tables.get? other).or (if name = other then some (Table.create name columns) else none) := by
  rw [after]
  split
  · next hthere =>
    split
    · next same =>
      subst same
      obtain ⟨table, htable⟩ := Option.isSome_iff_exists.mp hthere
      rw [htable, Option.some_or]
    · rw [Option.or_none]
  · have hname : (Table.create name columns).name = name := rfl
    rw [get?, List.find?_append, List.find?_singleton]
    simp [get?, hname]

theorem find?_after_add (test : String → Bool) (tables : Tables) (name : String) (columns : Definitions) :
    (tables.after (.add name columns)).find? (fun table => test table.name) =
      (tables.find? fun table => test table.name).map fun table => if table.name = name then table.addNew columns else table := by
  rw [after, List.find?_map]
  congr 2
  funext table
  simp only [Function.comp_apply]
  split <;> rfl

theorem get?_after_add (tables : Tables) (name : String) (columns : Definitions) (other : String) :
    (tables.after (.add name columns)).get? other =
      (tables.get? other).map fun table => if table.name = name then table.addNew columns else table :=
  find?_after_add (· == other) tables name columns

theorem lookup_after_add (tables : Tables) (name : String) (columns : Definitions) (other : String) :
    (tables.after (.add name columns)).lookup fold other =
      (tables.lookup fold other).map fun table => if table.name = name then table.addNew columns else table := by
  have hfolded := find?_after_add (fun listed => fold listed == fold other) tables name columns
  rw [lookup, lookup, get?_after_add, hfolded, Option.map_or]

end Tables

end Relational

end ObjectStore
