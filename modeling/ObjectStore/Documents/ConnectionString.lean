import ObjectStore.Failure
import ObjectStore.Text.Numeral
import ObjectStore.Text.Percent
import ObjectStore.Text.Split

/-!
# Connection strings

Where a document database is found: a scheme, an optional user, one or more hosts, and optionally a database and options. A string that breaks the grammar is refused before anything is sent.
-/

namespace ObjectStore

namespace Documents

/-- A server, by its name and the number at which it listens, or by the path of a socket. -/
inductive Host where
  | network (name : String) (listensAt : Option Nat)
  | socket (path : String)
deriving DecidableEq

structure ConnectionString where
  /-- The servers are to be looked up under the name of the one host. -/
  lookup : Bool
  hosts : List Host
  database : Option String
deriving DecidableEq

namespace ConnectionString

def require (condition : Bool) : Option Unit := if condition then some () else none

def nonempty : Option (List Char) → Option (List Char)
  | some [] | none => none
  | part => part

/-- The number at which a server listens, in 16 bits and not zero. -/
def listensAt? (text : List Char) : Option Nat :=
  let digits := match text with
    | '+' :: rest => rest
    | text => text
  (Numeral.natural? digits).filter fun n => 0 < n && n < 65536

def looksLikeAddress (text : List Char) : Bool :=
  text.all (fun c => c = ':' || c = '.' || (Percent.hexValue? c.toUInt8).isSome && c.toNat < 128)
    && 2 ≤ text.count ':'

/-- A host: the path of a socket, an address in brackets or a name. -/
def host? (text : List Char) : Option Host :=
  if ".sock".toList.isSuffixOf text then (Percent.decode? text).map .socket
  else
    match text with
    | '[' :: rest =>
      match Split.atFirst (· == ']') rest with
      | (address, some behind) => do
        require (looksLikeAddress address)
        match behind with
        | [] => return .network (String.ofList address) none
        | ':' :: number => return .network (String.ofList address) (some (← listensAt? number))
        | _ => none
      | (_, none) => none
    | text => do
      let (name, number) := Split.atFirst (· == ':') text
      require (!name.isEmpty)
      match number with
      | none => return .network (String.ofList name) none
      | some number => return .network (String.ofList name) (some (← listensAt? number))

/-- Whether every percent sign is followed by two hexadecimal digits. -/
def escapesComplete (text : List Char) : Bool :=
  ((Split.on '%' text).drop 1).all fun part =>
    2 ≤ part.length && (part.take 2).all fun c => c.toNat < 128 && (Percent.hexValue? c.toUInt8).isSome

def userSigns : List Char := ":/?#[]@".toList

def isUserPart (text : List Char) : Bool :=
  !text.any userSigns.contains && escapesComplete text && (Percent.decode? text).isSome

def isUser (text : List Char) : Bool :=
  let (name, password) := Split.atFirst (· == ':') text
  !name.isEmpty && isUserPart name && isUserPart (password.getD [])

def databaseSigns : List Char := "/\\ \"$".toList

def database? (text : List Char) : Option String :=
  (Percent.decode? text).filter fun name => !name.toList.any databaseSigns.contains

/-- What the value of an option has to be. -/
inductive OptionKind where
  | text
  | flag
  /-- A number that is not below another. -/
  | number (least : Nat)
  /-- A word, or a number that is not negative. -/
  | acknowledgment
  /-- One of some words, in any case. -/
  | oneOf (words : List String)
  /-- One of some words as they are written. -/
  | exactly (words : List String)

def optionKinds : List (String × OptionKind) :=
  [("appname", .text),
    ("authmechanism", .exactly ["MONGODB-CR", "MONGODB-OIDC", "MONGODB-X509", "PLAIN", "SCRAM-SHA-1", "SCRAM-SHA-256"]),
    ("authmechanismproperties", .text), ("authsource", .text), ("connecttimeoutms", .number 0),
    ("directconnection", .flag), ("heartbeatfrequencyms", .number 500), ("journal", .flag), ("loadbalanced", .flag),
    ("localthresholdms", .number 0), ("maxconnecting", .number 0), ("maxidletimems", .number 0),
    ("maxpoolsize", .number 0), ("maxstalenessseconds", .number 0), ("minpoolsize", .number 0),
    ("readconcernlevel", .text),
    ("readpreference", .oneOf ["nearest", "primary", "primarypreferred", "secondary", "secondarypreferred"]),
    ("readpreferencetags", .text), ("replicaset", .text), ("retryreads", .flag), ("retrywrites", .flag),
    ("servermonitoringmode", .oneOf ["auto", "poll", "stream"]), ("serverselectiontimeoutms", .number 0),
    ("sockettimeoutms", .number 0), ("ssl", .flag), ("tls", .flag), ("tlsallowinvalidcertificates", .flag),
    ("tlscafile", .text), ("tlscertificatekeyfile", .text), ("tlsinsecure", .flag), ("uuidrepresentation", .text),
    ("w", .acknowledgment), ("waitqueuetimeoutms", .number 0), ("wtimeoutms", .number 0)]

def OptionKind.admits (kind : OptionKind) (value : String) : Bool :=
  match kind with
  | text => true
  | flag => value = "true" || value = "false"
  | number least => (Numeral.uint64? value.toList).any (least ≤ ·)
  | acknowledgment =>
    match Numeral.integer? value.toList with
    | some n => 0 ≤ n || !fitsBits 32 n
    | none => true
  | oneOf words => words.contains (value.map Char.toLower)
  | exactly words => words.contains value

/-- An option: a known name, put into lower case, and a value of its kind. -/
def option? (text : List Char) : Option (String × String) := do
  let (name, value) := Split.atFirst (· == '=') text
  let name := String.ofList (name.map Char.toLower)
  let kind ← optionKinds.lookup name
  let value ← value.bind Percent.decode?
  if kind.admits value then some (name, value) else none

def writtenName (text : List Char) : String := String.ofList (Split.atFirst (· == '=') text).1

def repeatable : String := "readpreferencetags"

/-- The options between ampersands. No name is written twice. -/
def options? (text : List Char) : Option (List (String × String)) := do
  let parts := Split.on '&' text
  let names := (parts.map writtenName).filter fun name => name.map Char.toLower != repeatable
  if names.eraseDups.length = names.length then parts.mapM option? else none

/-- The schemes; one of them has the servers looked up. -/
def schemes : List (String × Bool) := [("mongodb://", false), ("mongodb+srv://", true)]

def afterScheme? (text : List Char) : Option (Bool × List Char) :=
  schemes.findSome? fun (scheme, lookup) =>
    if scheme.toList.isPrefixOf text then some (lookup, text.drop scheme.length) else none

/-- What stands behind the last at sign, and the user before it if there is one. -/
def splitUser (text : List Char) : Option (List Char) × List Char :=
  let (behind, before) := Split.atFirst (· == '@') text.reverse
  (before.map List.reverse, behind.reverse)

/-- The options that ask for a single server. -/
def singular : List (String × String) := [("directconnection", "true"), ("loadbalanced", "true")]

/-- Whether the hosts suit the way in which servers are found: a looked-up name stands alone and without a number, and options may ask for a single server. -/
def hostsSuit (lookup : Bool) (options : List (String × String)) : List Host → Bool
  | [.network _ none] => true
  | [_] => !lookup
  | _ => !lookup && !options.any singular.contains

/-- Whether the user suits the mechanism by which it is authenticated, if one is named: most need a name, one a password too, and one must not be given a password. -/
def userSuits (options : List (String × String)) (user : Option (List Char)) : Bool :=
  let password := user.any fun user => user.contains ':'
  match options.lookup "authmechanism" with
  | some "SCRAM-SHA-1" | some "SCRAM-SHA-256" => user.isSome
  | some "PLAIN" => password
  | some "MONGODB-X509" => !password
  | _ => true

def parse? (text : String) : Option ConnectionString := do
  let (lookup, rest) ← afterScheme? text.toList
  let (front, behind) := Split.atFirst (· == '/') rest
  require (behind.isSome || !front.contains '?')
  let (path, options) := Split.atFirst (· == '?') (behind.getD [])
  let database ← (nonempty (some path)).elim (some none) fun path => (database? path).map some
  let (user, hosts) := splitUser front
  require (user.all isUser)
  let hosts ← (Split.on ',' hosts).mapM host?
  let options ← (nonempty options).elim (some []) options?
  require (userSuits options user)
  require (hostsSuit lookup options hosts)
  return { lookup, hosts, database }

def malformed : Failure := .backend none "invalid connection string"

/-- The servers cannot be looked up, because no names are resolved. -/
def unresolved : Failure := .backend none "the servers cannot be looked up"

def unnamed : Failure := .unsupportedOperation "the connection string names no database"

/-- The database to work on: a given one, or else the one that the connection string names. -/
def databaseOf (given : Option String) (text : String) : Outcome String :=
  match parse? text with
  | none => .error malformed
  | some parsed =>
    if parsed.lookup then .error unresolved
    else match given.or parsed.database with
    | some database => .ok database
    | none => .error unnamed

end ConnectionString

end Documents

end ObjectStore
