import ObjectStore.Column

/-!
# Column types

The types of columns. A column holds what is written to it when no value loses anything by being stored.
-/

namespace ObjectStore

namespace Relational

inductive SqlType where
  | boolean | text | bigint | doublePrecision | numeric | timestamptz | date | time | bytea | jsonb
deriving DecidableEq, Inhabited

namespace SqlType

def all : List SqlType := [boolean, text, bigint, doublePrecision, numeric, timestamptz, date, time, bytea, jsonb]

def ofFieldType : FieldType → SqlType
  | .boolean => boolean
  | .string => text
  | .integer => bigint
  | .number => doublePrecision
  | .decimal => numeric
  | .timestamp => timestamptz
  | .date => date
  | .time => time
  | .binary => bytea
  | .json => jsonb

/-- The column type that a value needs. Null needs none. -/
def ofValue? (value : Value) : Option SqlType := (FieldType.ofValue? value).map ofFieldType

def name : SqlType → String
  | boolean => "BOOLEAN"
  | text => "TEXT"
  | bigint => "BIGINT"
  | doublePrecision => "DOUBLE PRECISION"
  | numeric => "NUMERIC"
  | timestamptz => "TIMESTAMPTZ"
  | date => "DATE"
  | time => "TIME"
  | bytea => "BYTEA"
  | jsonb => "JSONB"

/-- The cast of a parameter. Decimals travel as text. -/
def cast : SqlType → String
  | boolean => "boolean"
  | text => "text"
  | bigint => "bigint"
  | doublePrecision => "double precision"
  | numeric => "text::numeric"
  | timestamptz => "timestamptz"
  | date => "date"
  | time => "time"
  | bytea => "bytea"
  | jsonb => "jsonb"

/-- Whether a column of the first type keeps values of the second: its own, and integers where they widen. -/
def holds (column written : SqlType) : Bool :=
  column == written || ((column == doublePrecision || column == numeric) && written == bigint)

/-- The type that is closest to a type of the catalog. -/
def ofCatalog (dataType : String) : SqlType :=
  match dataType with
  | "boolean" => boolean
  | "bigint" | "integer" | "smallint" => bigint
  | "double precision" | "real" => doublePrecision
  | "numeric" => numeric
  | "timestamp with time zone" | "timestamp without time zone" => timestamptz
  | "date" => date
  | "time without time zone" | "time with time zone" => time
  | "bytea" => bytea
  | "jsonb" | "json" => jsonb
  | _ => text

end SqlType

end Relational

end ObjectStore
