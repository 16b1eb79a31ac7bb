/-!
# Ordered maps

A finite map from names to values that remembers the order in which the names first appeared. Writing a name that is already there changes its value and keeps its place; a new name goes to the end. All functions here work on any list of entries and keep names distinct when they already are.
-/

namespace ObjectStore

/-- Entries in the order in which their names first appeared. -/
abbrev OrderedMap (α : Type u) := List (String × α)

namespace OrderedMap

variable {α : Type u} {β : Type v}

def get? : OrderedMap α → String → Option α
  | [], _ => none
  | (name, value) :: rest, key => if name = key then some value else get? rest key

def contains (map : OrderedMap α) (key : String) : Bool := (get? map key).isSome

/-- Writes a value under a name, in place when the name is there and at the end otherwise. -/
def insert : OrderedMap α → String → α → OrderedMap α
  | [], key, value => [(key, value)]
  | (name, old) :: rest, key, value =>
    if name = key then (name, value) :: rest else (name, old) :: insert rest key value

/-- Writes a value under a name only when the name has no entry yet. -/
def insertNew (map : OrderedMap α) (key : String) (value : α) : OrderedMap α :=
  if contains map key then map else insert map key value

/-- Removes the entry of a name and keeps the order of the others. -/
def erase : OrderedMap α → String → OrderedMap α
  | [], _ => []
  | (name, value) :: rest, key => if name = key then rest else (name, value) :: erase rest key

/-- Writes a present value and removes the entry for an absent one. -/
def put (map : OrderedMap α) (key : String) : Option α → OrderedMap α
  | some value => insert map key value
  | none => erase map key

def keys (map : OrderedMap α) : List String := map.map Prod.fst

def values (map : OrderedMap α) : List α := map.map Prod.snd

/-- Writes every entry of the second map over the first, in order. -/
def extend (map entries : OrderedMap α) : OrderedMap α :=
  entries.foldl (fun result entry => insert result entry.1 entry.2) map

/-- The map that a sequence of writes leaves: first position, last value. -/
def ofList (entries : List (String × α)) : OrderedMap α := extend [] entries

def filter (test : String → α → Bool) (map : OrderedMap α) : OrderedMap α :=
  List.filter (fun entry => test entry.1 entry.2) map

/-- Renames every entry; of two names that become one, the later value counts. -/
def mapKeys (rename : String → String) (map : OrderedMap α) : OrderedMap α :=
  ofList (map.map fun entry => (rename entry.1, entry.2))

def Distinct (map : OrderedMap α) : Prop := (keys map).Nodup

end OrderedMap

/-- A set of names in the order in which they were first listed. -/
abbrev NameSet := List String

namespace NameSet

def ofList (names : List String) : NameSet := names.eraseDups

end NameSet

end ObjectStore
