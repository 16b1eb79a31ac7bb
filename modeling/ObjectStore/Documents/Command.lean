import ObjectStore.Documents.Changes
import ObjectStore.Documents.Filter
import ObjectStore.Documents.Options

/-!
# Commands

What a database is asked to do, with the names of collections as they are stored. Every command has a name, a target and fields, and an answer of a type of its own.
-/

namespace ObjectStore

namespace Documents

/-- A part of a result that arrives at once. -/
structure Batch where
  documents : List Document
  /-- The database has more. -/
  more : Bool

inductive Command where
  | listCollections
  | create (collection : String)
  | drop (collection : String)
  | createIndex (collection name : String) (keys : Document) (unique : Bool)
  | dropIndex (collection name : String)
  | find (collection : String) (filter : Filter) (options : FindOptions)
  /-- Counts matches, after passing over some and up to a limit. -/
  | count (collection : String) (filter : Filter) (skip limit : Option Nat)
  /-- Changes the first match, or inserts a document if there is none and that is wanted. -/
  | updateOne (collection : String) (filter : Filter) (changes : Changes) (options : FindOneOptions) (upsert : Bool)
  | deleteOne (collection : String) (filter : Filter) (sort projection : Option Document)
  | insert (collection : String) (document : Document)
  /-- Removes fields from all documents. -/
  | unsetAll (collection : String) (names : List String)
  | deleteAll (collection : String) (filter : Filter)

/-- What a database answers to a command that succeeds. -/
def Command.Answer : Command → Type
  | listCollections | find _ _ _ => Batch
  | create _ | drop _ | createIndex _ _ _ _ | dropIndex _ _ | insert _ _ | unsetAll _ _ => Unit
  | count _ _ _ _ | deleteAll _ _ => Nat
  | updateOne _ _ _ _ _ | deleteOne _ _ _ _ => Option Document

namespace Command

def name : Command → String
  | listCollections => "listCollections"
  | create _ => "create"
  | drop _ => "drop"
  | createIndex _ _ _ _ => "createIndexes"
  | dropIndex _ _ => "dropIndexes"
  | find _ _ _ => "find"
  | count _ _ _ _ => "aggregate"
  | updateOne _ _ _ _ _ | deleteOne _ _ _ _ => "findAndModify"
  | insert _ _ => "insert"
  | unsetAll _ _ => "update"
  | deleteAll _ _ => "delete"

def target? : Command → Option String
  | listCollections => none
  | create collection | drop collection | createIndex collection _ _ _ | dropIndex collection _ | find collection _ _
  | count collection _ _ _ | updateOne collection _ _ _ _ | deleteOne collection _ _ _ | insert collection _
  | unsetAll collection _ | deleteAll collection _ => some collection

/-- A field that is written only if it has a value. -/
def optionalField (name : String) (value : Option Bson) : Document := (value.map fun value => (name, value)).toList

def ofNat (n : Nat) : Bson := .int64 (Int64.ofNat n)

def stage (name : String) (operand : Bson) : Bson := .document [(name, operand)]

def countPipeline (filter : Filter) (skip limit : Option Nat) : List Bson :=
  stage "$match" (.document filter.document) ::
    ((skip.map fun n => stage "$skip" (ofNat n)).toList ++ (limit.map fun n => stage "$limit" (ofNat n)).toList
      ++ [stage "$group" (.document [("_id", .int32 1), ("n", stage "$sum" (.int32 1))])])

/-- The fields of a command, in the order of their names. -/
def fields : Command → Document
  | listCollections => [("nameOnly", .boolean true)]
  | create _ | drop _ => []
  | createIndex _ name keys unique =>
    [("indexes", .array [.document [("key", .document keys), ("name", .string name), ("unique", .boolean unique)]])]
  | dropIndex _ name => [("index", .string name)]
  | find _ filter options =>
    ("filter", .document filter.document) :: (optionalField "limit" (options.limit.map .int64)
      ++ optionalField "projection" (options.projection.map .document) ++ optionalField "skip" (options.skip.map ofNat)
      ++ optionalField "sort" (options.sort.map .document))
  | count _ filter skip limit => [("cursor", .document []), ("pipeline", .array (countPipeline filter skip limit))]
  | updateOne _ filter changes options upsert =>
    optionalField "fields" (options.projection.map .document)
      ++ [("new", .boolean (options.returning = .after)), ("query", .document filter.document)]
      ++ optionalField "sort" (options.sort.map .document) ++ [("update", .document changes.document)]
      ++ (if upsert then [("upsert", .boolean true)] else [])
  | deleteOne _ filter sort projection =>
    optionalField "fields" (projection.map .document)
      ++ [("query", .document filter.document), ("remove", .boolean true)] ++ optionalField "sort" (sort.map .document)
  | insert _ document => [("documents", .array [.document document])]
  | unsetAll _ names =>
    let unset : Document := OrderedMap.ofList (names.map fun name => (name, .string ""))
    [("updates", .array [.document [("q", .document []), ("u", stage Operator.unset.name (.document unset)),
      ("multi", .boolean true)]])]
  | deleteAll _ filter =>
    [("deletes", .array [.document [("q", .document filter.document), ("limit", .int32 0)]])]

/-- Whether a command belongs to an open transaction. The shape of collections is changed outside of it. -/
def joins : Command → Bool
  | create _ | drop _ | createIndex _ _ _ _ | dropIndex _ _ | unsetAll _ _ => false
  | _ => true

end Command

end Documents

end ObjectStore
