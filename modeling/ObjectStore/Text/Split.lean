/-!
# Splitting text

Cutting a list of characters at separators. What is between the separators is kept as it is, empty pieces included.
-/

namespace ObjectStore

namespace Split

/-- What precedes the first character that passes a test, and what follows it if there is one. -/
def atFirst (test : Char → Bool) (text : List Char) : List Char × Option (List Char) :=
  match text.dropWhile (fun c => !test c) with
  | [] => (text, none)
  | _ :: rest => (text.takeWhile fun c => !test c, some rest)

/-- The pieces between separators; there is always one more of them than of separators. -/
def on (separator : Char) : List Char → List (List Char)
  | [] => [[]]
  | c :: rest =>
    if c = separator then [] :: on separator rest
    else
      match on separator rest with
      | piece :: pieces => (c :: piece) :: pieces
      | [] => [[c]]

end Split

end ObjectStore
