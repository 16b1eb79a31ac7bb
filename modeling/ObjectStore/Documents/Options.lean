import ObjectStore.Bson
import ObjectStore.Object
import ObjectStore.Retry
import ObjectStore.Text.Percent

/-!
# Options of commands

What accompanies a filter: the order of the matches, the fields to return, the page to read and the guarantees of a transaction.
-/

namespace ObjectStore

namespace Documents

def direction : SortOrder → Bson
  | .ascending => .int32 1
  | .descending => .int32 (-1)

def sortDocument? (sort : SortKeys) : Option Document :=
  if sort.isEmpty then none else some (sort.map fun (key, order) => (Percent.escape key, direction order))

def projection (includes : NameSet) : Document := includes.map fun key => (Percent.escape key, .int32 1)

/-- Which matches are read, in which order, and which of their fields. -/
structure FindOptions where
  sort : Option Document
  projection : Option Document
  /-- Matches to pass over, if any. -/
  skip : Option Nat
  /-- The most matches to read, in 64 bits. No limit and a limit of zero are the same to the database. -/
  limit : Option Int64

/-- The number of matches to pass over; none is not mentioned. -/
def skipOf (query : FindQuery) : Option Nat := if query.skip = 0 then none else some query.skip

def FindOptions.ofQuery (query : FindQuery) : FindOptions where
  sort := sortDocument? query.sort
  projection := query.includes.map Documents.projection
  skip := skipOf query
  limit := query.limit.map Int64.ofNat

/-- Which match is written and what is returned of it. -/
structure FindOneOptions where
  sort : Option Document
  projection : Option Document
  returning : Returning

def FindOneOptions.ofQuery (query : FindOneQuery) : FindOneOptions where
  sort := sortDocument? query.sort
  projection := query.includes.map Documents.projection
  returning := query.returning

/-- Whether an upsert inserts the id that the filters fix, as far as its record can be computed. -/
def pinsId (query : FindOneQuery) : Bool :=
  match query.upsertSeed with
  | .ok seed => OrderedMap.contains seed FieldName.physicalId
  | .error _ => false

/-- What the reads of a transaction see. -/
inductive ReadConcern where
  /-- What a majority of the servers has acknowledged. -/
  | majority
  /-- One state of such data. -/
  | snapshot
deriving DecidableEq

def ReadConcern.name : ReadConcern → String
  | majority => "majority"
  | snapshot => "snapshot"

structure Concerns where
  read : Option ReadConcern
  /-- A majority of the servers has to acknowledge the writes. -/
  majorityWrites : Bool

def Concerns.ofIsolation : IsolationLevel → Concerns
  | .default => { read := none, majorityWrites := false }
  | .readCommitted => { read := some .majority, majorityWrites := true }
  | .repeatableRead | .serializable => { read := some .snapshot, majorityWrites := true }

end Documents

end ObjectStore
