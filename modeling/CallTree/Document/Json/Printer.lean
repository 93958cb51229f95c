import CallTree.Plain

/-! Plain data as JSON text. -/
namespace CallTree.Json

/-- The escape for a character that does not stand for itself in a string. -/
def escape? (c : Char) : Option (List Char) :=
  if c = '"' then some ['\\', '"']
  else if c = '\\' then some ['\\', '\\']
  else if c = '\n' then some ['\\', 'n']
  else if c = '\r' then some ['\\', 'r']
  else if c = '\t' then some ['\\', 't']
  else if c.toNat = 8 then some ['\\', 'b']
  else if c.toNat = 12 then some ['\\', 'f']
  else if c.toNat < 32 then some ('\\' :: 'u' :: Text.hex 4 c.toNat)
  else none

def printChar (c : Char) : List Char := (escape? c).getD [c]

def printString (s : String) : List Char := '"' :: s.toList.flatMap printChar ++ ['"']

def numberLayout : NumberLayout := ⟨"Infinity", "NaN", false, 2⟩

/-- How values are set apart: on lines of their own, or on one line. -/
structure Layout where
  pretty : Bool

namespace Layout

/-- What comes before an item at a depth. -/
def lineAt (l : Layout) (depth : Nat) : List Char :=
  if l.pretty then '\n' :: List.replicate (2 * depth) ' ' else []

/-- What comes between two items at a depth. -/
def separator (l : Layout) (depth : Nat) : List Char :=
  if l.pretty then ',' :: l.lineAt depth else [',', ' ']

end Layout

mutual
def print (l : Layout) (depth : Nat) : Plain → List Char
  | .null => "null".toList
  | .bool b => if b then "true".toList else "false".toList
  | .int n => (toString n).toList
  | .float x => (numberLayout.render x).toList
  | .str s => printString s
  | .list [] => ['[', ']']
  | .list xs => '[' :: l.lineAt (depth + 1) ++ printItems l (depth + 1) xs ++
      l.lineAt depth ++ [']']
  | .map [] => ['\x7b', '\x7d']
  | .map es => '\x7b' :: l.lineAt (depth + 1) ++ printEntries l (depth + 1) es ++
      l.lineAt depth ++ ['\x7d']

def printItems (l : Layout) (depth : Nat) : List Plain → List Char
  | [] => []
  | [x] => print l depth x
  | x :: r => print l depth x ++ l.separator depth ++ printItems l depth r

def printEntries (l : Layout) (depth : Nat) : List (String × Plain) → List Char
  | [] => []
  | [(k, v)] => printString k ++ ':' :: ' ' :: print l depth v
  | (k, v) :: r => printString k ++ ':' :: ' ' :: print l depth v ++ l.separator depth ++
      printEntries l depth r
end

def render (pretty : Bool) (p : Plain) : String := String.ofList (print ⟨pretty⟩ 0 p)

end CallTree.Json
