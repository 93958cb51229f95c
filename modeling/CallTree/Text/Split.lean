/-! Text cut at separators. -/
namespace CallTree.Text

/-- What is before and after the first place where `sep` stands. -/
def cut? (sep : List Char) : List Char → Option (List Char × List Char)
  | [] => none
  | c :: r =>
    if sep.isPrefixOf (c :: r) then some ([], (c :: r).drop sep.length)
    else (cut? sep r).map fun p => (c :: p.1, p.2)

/-- Cuts at the first places where `sep` stands, at most at a given number of them. -/
def splitAtMost (sep : List Char) : Nat → List Char → List (List Char)
  | 0, s => [s]
  | n + 1, s => match cut? sep s with
    | some (a, b) => a :: splitAtMost sep n b
    | none => [s]

def split (sep s : List Char) : List (List Char) := splitAtMost sep s.length s

/-- How often `sep` stands in a text, without overlaps. -/
def occurrences (sep s : List Char) : Nat := (split sep s).length - 1

def join (sep : List Char) (parts : List (List Char)) : List Char := sep.intercalate parts

/-- Replaces each `old` by `new`. -/
def replace (old new s : List Char) : List Char := join new (split old s)

/-- Whether a character is escaped by what is before it, the nearest first. -/
def escapedAfter (behind : List Char) : Bool := (behind.takeWhile (· == '\\')).length % 2 == 1

/-- Whether an odd number of backslashes ends the text. -/
def endsEscaped (s : List Char) : Bool := escapedAfter s.reverse

/-- Text without its first and its last character. -/
def inner (s : List Char) : List Char := (s.drop 1).dropLast

/-- Text with each line break written as one character. -/
def unifyBreaks : List Char → List Char
  | '\r' :: '\n' :: r => '\n' :: unifyBreaks r
  | '\r' :: r => '\n' :: unifyBreaks r
  | c :: r => c :: unifyBreaks r
  | [] => []

end CallTree.Text
