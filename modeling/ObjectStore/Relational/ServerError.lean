import ObjectStore.Failure

/-!
# Errors of the server

Every error of the server is classified once, when it arrives.
-/

namespace ObjectStore

namespace Relational

structure ServerError where
  /-- The five-character code, which an error of the connection does not have. -/
  code : Option String
  message : String
  /-- The violated constraint. -/
  constraint : Option String := none
deriving DecidableEq, Inhabited

namespace ServerError

/-- The unique indexes of the catalog that concurrent definitions can violate. -/
def catalogIndexes : List String :=
  ["pg_type_typname_nsp_index", "pg_class_relname_nsp_index", "pg_attribute_relid_attnam_index"]

/-- The race behind a violated uniqueness. -/
def raceOfConstraint? (constraint : String) : Option Race :=
  if catalogIndexes.contains constraint then some .duplicateTable
  else if constraint.endsWith "_pkey" then some .duplicateId
  else none

def race? (error : ServerError) : Option Race :=
  match error.code with
  | some "40001" | some "40P01" => some .conflict
  | some "42P07" | some "42701" => some .duplicateTable
  | some "23505" => error.constraint.bind raceOfConstraint?
  | _ => none

def toFailure (error : ServerError) : Failure := .backend error.race? error.message

end ServerError

end Relational

end ObjectStore
