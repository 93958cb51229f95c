import CallTree.Argument
import CallTree.Text.Blank

/-! Keys of a request: declarations of a variable, and patterns that take a value apart. -/
namespace CallTree.Key

/-- The steps from a value to one of its parts. -/
abbrev Path := List String

/-- The name in a key that is as a whole `$name`. -/
def declaration? : List Char → Option (List Char)
  | '$' :: r =>
    match r.span Text.isWord with
    | (n, rest) => if n ≠ [] ∧ Argument.AtEnd rest then some n else none
  | _ => none

/-- Splits at each `sep`. -/
def splitOn (sep : Char) : List Char → List (List Char)
  | [] => [[]]
  | c :: r =>
    if c = sep then [] :: splitOn sep r
    else match splitOn sep r with
      | [] => [[c]]
      | p :: ps => (c :: p) :: ps

/-- The segments of a path, if each is a name. -/
def segments? (s : List Char) : Option (List (List Char)) :=
  let parts := splitOn '.' s
  if ∀ p ∈ parts, Text.IsName p then some parts else none

/-- The text between the braces of a key. -/
def inBraces? (s : List Char) : Option (List Char) :=
  match Text.trim s with
  | '\x7b' :: r => if r.getLast? = some '\x7d' then some r.dropLast else none
  | _ => none

/-- The paths of a key such as `\x7ba, b.c\x7d`; other keys are plain. -/
def paths? (s : List Char) : Option (List (List (List Char))) :=
  match inBraces? s with
  | some inner => (splitOn ',' inner).mapM fun p => segments? (Text.trim p)
  | none => none

def declarationName? (s : String) : Option String :=
  (declaration? s.toList).map String.ofList

def destructuring? (s : String) : Option (List Path) :=
  (paths? s.toList).map (·.map (·.map String.ofList))

end CallTree.Key
